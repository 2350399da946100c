import Caiman.Lib.History

/-!
# Who the API serves

`require_auth` lets a request through when its token is signed with the secret of the API and
has not expired. Tokens come from `/auth/bootstrap` and `/auth/token`, which ask for none. The
secret is read again for every token; where neither the environment nor the file gives one, it
is a constant.

A token stands for its text: its claims and the secret it is signed with. A client can present
what the API has given out, and what it signs itself with a secret that it knows.
-/

namespace Caiman.Api.Auth

open Lib

def jwtExpiryHours : Nat := 24

structure Claims where
  sub : String
  role : String
  provider : String
  exp : Nat
  iat : Nat
  deriving DecidableEq, Repr

structure Token where
  secret : String
  claims : Claims
  deriving DecidableEq, Repr

structure TokenResponse where
  token : Token
  username : String
  role : String
  expires : Nat
  deriving DecidableEq, Repr

/-! ## The secret -/

/-- Where the secret comes from: `CAIMAN_JWT_SECRET`, and the file. -/
structure Environment where
  env : Option String
  file : Option String
  deriving DecidableEq, Repr

def isWhiteSpace (c : Char) : Bool :=
  (9 ≤ c.toNat && c.toNat ≤ 13) || (0x2000 ≤ c.toNat && c.toNat ≤ 0x200A) ||
    c.toNat ∈ [0x20, 0x85, 0xA0, 0x1680, 0x2028, 0x2029, 0x202F, 0x205F, 0x3000]

def trim (s : String) : String :=
  String.ofList (((s.toList.dropWhile isWhiteSpace).reverse.dropWhile isWhiteSpace).reverse)

def devSecret : String := "caiman-dev-secret"

/-- A secret of the environment is not trimmed. -/
def getSecret (e : Environment) : String :=
  match e.env with
  | some secret => secret
  | none => trim (e.file.getD devSecret)

/-! ## Tokens -/

/-- `now` is in seconds. -/
def makeToken (e : Environment) (now : Nat) (username role provider : String) : TokenResponse :=
  let exp := now + jwtExpiryHours * 3600
  { token := ⟨getSecret e, ⟨username, role, provider, exp, now⟩⟩
    username := username
    role := role
    expires := exp }

def bootstrapToken (e : Environment) (now : Nat) : TokenResponse :=
  makeToken e now "admin" "admin" "local"

/-- An error is its text; the status is 401. -/
def generateToken (e : Environment) (now : Nat) (username password : String) :
    Except String TokenResponse :=
  if password.utf8ByteSize < 4 then .error "Invalid credentials"
  else
    let role := if username = "root" ∨ username = "admin" then "admin" else "operator"
    .ok (makeToken e now username role "local")

/-- The leeway of `Validation::default()`, in seconds. -/
def leeway : Nat := 60

def verifyToken (e : Environment) (now : Nat) (token : Token) : Option Claims :=
  if token.secret = getSecret e ∧ now ≤ token.claims.exp + leeway then some token.claims else none

inductive Authorization
  | missing
  /-- no text that follows `Bearer `, or no token -/
  | other
  | bearer (token : Token)
  deriving DecidableEq, Repr

def requireAuth (e : Environment) (now : Nat) : Authorization → Except String Claims
  | .bearer token =>
      match verifyToken e now token with
      | some claims => .ok claims
      | none => .error "Missing or invalid token"
  | _ => .error "Missing or invalid token"

/-! ## The API -/

/-- What stands behind `require_auth`. -/
inductive Call
  | listVms
  | createVm
  | getVm (id : String)
  | deleteVm (id : String)
  | startVm (id : String)
  | stopVm (id : String)
  | forceStop (id : String)
  | vmLogs (id : String)
  | migrateVm (id : String)
  | nodes
  | cluster
  | recommendations
  | discover
  | importVm
  deriving DecidableEq, Repr

inductive Request
  | health
  | bootstrap
  | token (username password : String)
  | console (id : String)
  | guarded (authorization : Authorization) (call : Call)
  deriving DecidableEq, Repr

structure State where
  now : Nat
  environment : Environment
  /-- every token that has been given out -/
  issued : List Token
  deriving DecidableEq, Repr

def State.new (now : Nat) (e : Environment) : State := ⟨now, e, []⟩

inductive Action
  | elapse (seconds : Nat)
  /-- the operator writes the file -/
  | configure (file : Option String)
  | request (r : Request)
  deriving DecidableEq, Repr

inductive Event
  | healthy
  | issued (r : TokenResponse)
  | unauthorized (error : String)
  | console (id : String)
  /-- The call reaches its handler; the handler is not told the claims. -/
  | served (call : Call) (claims : Claims) (now : Nat)
  deriving DecidableEq, Repr

def State.issue (s : State) (r : TokenResponse) : State × List Event :=
  ({ s with issued := s.issued ++ [r.token] }, [.issued r])

def State.handle (s : State) : Request → State × List Event
  | .health => (s, [.healthy])
  | .bootstrap => s.issue (bootstrapToken s.environment s.now)
  | .token username password =>
      match generateToken s.environment s.now username password with
      | .ok r => s.issue r
      | .error error => (s, [.unauthorized error])
  | .console id => (s, [.console id])
  | .guarded authorization call =>
      match requireAuth s.environment s.now authorization with
      | .ok claims => (s, [.served call claims s.now])
      | .error error => (s, [.unauthorized error])

def api : Machine State Action Event where
  step s
    | .elapse seconds => ({ s with now := s.now + seconds }, [])
    | .configure file => ({ s with environment := { s.environment with file := file } }, [])
    | .request r => s.handle r

/-! ## Who is served -/

section

variable (known : String → Prop) (files : Option String → Prop)

/-- What a client that knows these secrets can present, and what the file may become. -/
def Possible (s : State) : Action → Prop
  | .elapse _ => True
  | .configure file => files file
  | .request (.guarded (.bearer token) _) => token ∈ s.issued ∨ known token.secret
  | .request _ => True

end

/-- The tokens of an answer are valid for the hours that they say. -/
structure TokenResponse.Sound (r : TokenResponse) : Prop where
  username : r.username = r.token.claims.sub
  role : r.role = r.token.claims.role
  expires : r.expires = r.token.claims.exp
  lifetime : r.token.claims.exp = r.token.claims.iat + jwtExpiryHours * 3600

/-- A call is served for a token that the API has given out, no longer ago than a token lasts. -/
def Warrants (past : List Event) : Event → Prop
  | .served _ claims now => ∃ r, Event.issued r ∈ past ∧ r.Sound ∧ r.token.claims = claims ∧
      claims.iat ≤ now ∧ now ≤ claims.iat + jwtExpiryHours * 3600 + leeway
  | _ => True

theorem makeToken_sound (e : Environment) (now : Nat) (username role provider : String) :
    (makeToken e now username role provider).Sound := ⟨rfl, rfl, rfl, rfl⟩

theorem verifyToken_spec {e : Environment} {now : Nat} {token : Token} {claims : Claims}
    (h : verifyToken e now token = some claims) :
    token.secret = getSecret e ∧ token.claims = claims ∧ now ≤ claims.exp + leeway := by
  unfold verifyToken at h
  split at h
  · rename_i hvalid
    cases h
    exact ⟨hvalid.1, rfl, hvalid.2⟩
  · cases h

theorem requireAuth_spec {e : Environment} {now : Nat} {authorization : Authorization}
    {claims : Claims} (h : requireAuth e now authorization = .ok claims) :
    ∃ token, authorization = .bearer token ∧ verifyToken e now token = some claims := by
  cases authorization with
  | missing => cases h
  | other => cases h
  | bearer token =>
      simp only [requireAuth] at h
      split at h
      · rename_i verified hverified
        cases h
        exact ⟨token, rfl, hverified⟩
      · cases h

theorem generateToken_spec {e : Environment} {now : Nat} {username password : String}
    {r : TokenResponse} (h : generateToken e now username password = .ok r) :
    ∃ role, r = makeToken e now username role "local" := by
  unfold generateToken at h
  split at h
  · cases h
  · cases h
    exact ⟨_, rfl⟩

def Reaches (env : Option String) (files : Option String → Prop) (file : Option String)
    (e : Environment) : Prop := e.env = env ∧ (e.file = file ∨ files e.file)

/-- What has been given out, when, and under which secrets the API goes on. -/
structure Traces (env : Option String) (files : Option String → Prop) (file : Option String)
    (past : List Event) (s : State) : Prop where
  environment : Reaches env files file s.environment
  issued : ∀ token ∈ s.issued, ∃ r, Event.issued r ∈ past ∧ r.Sound ∧ r.token = token ∧
    token.claims.iat ≤ s.now

section

variable {known : String → Prop} {files : Option String → Prop} {file value : Option String}
  {past : List Event} {s : State}

theorem Traces.more (h : Traces value files file past s) {s' : State} (es : List Event)
    (henvironment : Reaches value files file s'.environment) (hissued : s'.issued = s.issued)
    (hnow : s.now ≤ s'.now) : Traces value files file (past ++ es) s' where
  environment := henvironment
  issued := by
    intro token htoken
    rw [hissued] at htoken
    obtain ⟨r, hpast, hsound, hr, hiat⟩ := h.issued token htoken
    exact ⟨r, List.mem_append_left _ hpast, hsound, hr, Nat.le_trans hiat hnow⟩

theorem Traces.quiet (h : Traces value files file past s) {e : Event}
    (hwarrants : Warrants past e) :
    Warranted Warrants past [e] ∧ Traces value files file (past ++ [e]) s :=
  ⟨⟨hwarrants, trivial⟩, h.more [e] h.environment rfl (Nat.le_refl _)⟩

theorem Traces.issue (h : Traces value files file past s) (username role : String) :
    Warranted Warrants past
        (s.issue (makeToken s.environment s.now username role "local")).2 ∧
      Traces value files file
        (past ++ (s.issue (makeToken s.environment s.now username role "local")).2)
        (s.issue (makeToken s.environment s.now username role "local")).1 := by
  refine ⟨⟨trivial, trivial⟩, h.environment, ?_⟩
  intro token htoken
  rcases List.mem_append.mp htoken with hold | hnew
  · exact (h.more [_] h.environment rfl (Nat.le_refl _)).issued token hold
  · rw [List.mem_singleton.mp hnew]
    exact ⟨_, List.mem_append_right _ (List.mem_singleton_self _), makeToken_sound _ _ _ _ _, rfl,
      Nat.le_refl _⟩

theorem step_traces (hsafe : ∀ e, Reaches value files file e → ¬ known (getSecret e))
    (past : List Event) (s : State) (a : Action) (h : Traces value files file past s)
    (ha : Possible known files s a) :
    Warranted Warrants past (api.step s a).2 ∧
      Traces value files file (past ++ (api.step s a).2) (api.step s a).1 := by
  cases a with
  | elapse seconds => exact ⟨trivial, h.more [] h.environment rfl (Nat.le_add_right _ _)⟩
  | configure file' =>
      exact ⟨trivial, h.more [] ⟨h.environment.1, Or.inr ha⟩ rfl (Nat.le_refl _)⟩
  | request r =>
      show Warranted Warrants past (s.handle r).2 ∧
        Traces value files file (past ++ (s.handle r).2) (s.handle r).1
      cases r with
      | health => exact h.quiet trivial
      | console id => exact h.quiet trivial
      | bootstrap => exact h.issue "admin" "admin"
      | token username password =>
          simp only [State.handle]
          split
          · rename_i r hr
            obtain ⟨role, rfl⟩ := generateToken_spec hr
            exact h.issue username role
          · exact h.quiet trivial
      | guarded authorization call =>
          simp only [State.handle]
          split
          · rename_i claims hauth
            obtain ⟨token, rfl, hverified⟩ := requireAuth_spec hauth
            obtain ⟨hsecret, rfl, hexp⟩ := verifyToken_spec hverified
            apply h.quiet
            rcases ha with hissued | hknown
            · obtain ⟨r, hpast, hsound, rfl, hiat⟩ := h.issued token hissued
              have hlifetime := hsound.lifetime
              rw [hlifetime] at hexp
              exact ⟨r, hpast, hsound, rfl, hiat, hexp⟩
            · rw [hsecret] at hknown
              exact absurd hknown (hsafe s.environment h.environment)
          · exact h.quiet trivial

end

/-- A token that a client makes of the secret in force. -/
def forged (s : State) : Token := ⟨getSecret s.environment, ⟨"", "", "", s.now, 0⟩⟩

theorem forged_served (s : State) (call : Call) :
    (api.step s (.request (.guarded (.bearer (forged s)) call))).2 =
      [.served call (forged s).claims s.now] := by
  have hverified : verifyToken s.environment s.now (forged s) = some (forged s).claims :=
    if_pos ⟨rfl, Nat.le_add_right _ _⟩
  simp only [api, State.handle, requireAuth, hverified]

/-- Of an API that starts with this environment and whose file may become one of these: in every
run every call that is served is served for a token that the API gave out itself within the
last 24 hours and the leeway, exactly when no secret that can be in force is one that a client
knows. -/
theorem served_issued_iff (known : String → Prop) (files : Option String → Prop)
    (e : Environment) :
    (∀ now as, api.AllSteps (Possible known files) (.new now e) as →
      Warranted Warrants [] (api.run (.new now e) as).2) ↔
    ∀ e', Reaches e.env files e.file e' → ¬ known (getSecret e') := by
  constructor
  · intro h e' hreaches hknown
    have hnone : ∀ call claims now, ¬ Warranted Warrants [] [.served call claims now] := by
      rintro call claims now ⟨⟨r, hpast, -⟩, -⟩
      cases hpast
    -- the client signs a token itself, once the secret is in force
    have hpossible (s : State) (hs : s.environment = e') : Possible known files s
        (.request (.guarded (.bearer (forged s)) .listVms)) := by
      rw [← hs] at hknown
      exact Or.inr hknown
    rcases hreaches with ⟨henv, hfile | hfiles⟩
    · have hstart : e = e' := by
        cases e
        cases e'
        cases henv
        cases hfile
        rfl
      have hserved := h 0 [.request (.guarded (.bearer (forged (.new 0 e))) .listVms)]
        ⟨hpossible _ hstart, trivial⟩
      simp only [Machine.run_cons, Machine.run_nil, List.append_nil, forged_served] at hserved
      exact hnone _ _ _ hserved
    · have hlater : { e with file := e'.file } = e' := by
        cases e'
        cases henv
        rfl
      have hserved := h 0 [.configure e'.file,
          .request (.guarded (.bearer (forged (.new 0 { e with file := e'.file }))) .listVms)]
        ⟨hfiles, hpossible _ hlater, trivial⟩
      simp only [Machine.run_cons, Machine.run_nil, List.append_nil] at hserved
      exact hnone _ _ _ (forged_served (.new 0 { e with file := e'.file }) .listVms ▸ hserved)
  · intro hsafe now as hall
    have hnew : Traces e.env files e.file [] (.new now e) :=
      ⟨⟨rfl, Or.inl rfl⟩, fun token htoken => nomatch htoken⟩
    exact (api.run_warranted (step_traces hsafe) hnew hall).1

/-- Whatever the secret is, a client that knows none is served all the same, as an admin. -/
theorem anyone_served (s : State) (call : Call) :
    api.AllSteps (Possible (fun _ => False) (fun _ => False)) s
        [.request .bootstrap,
          .request (.guarded (.bearer (bootstrapToken s.environment s.now).token) call)] ∧
      (api.run s [.request .bootstrap,
          .request (.guarded (.bearer (bootstrapToken s.environment s.now).token) call)]).2 =
        [.issued (bootstrapToken s.environment s.now),
          .served call (bootstrapToken s.environment s.now).token.claims s.now] := by
  have hverified : verifyToken s.environment s.now (bootstrapToken s.environment s.now).token =
      some (bootstrapToken s.environment s.now).token.claims := by
    refine if_pos ⟨rfl, ?_⟩
    show s.now ≤ s.now + jwtExpiryHours * 3600 + leeway
    omega
  refine ⟨⟨trivial, Or.inl (List.mem_append_right _ (List.mem_singleton_self _)), trivial⟩, ?_⟩
  simp only [Machine.run_cons, Machine.run_nil, api, State.handle, State.issue, requireAuth,
    hverified, List.append_nil, List.singleton_append]

end Caiman.Api.Auth
