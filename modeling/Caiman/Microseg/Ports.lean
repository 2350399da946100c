import Caiman.Microseg.Lookup

/-!
# Port rules

One policy in an empty map, and what the lookup makes of its port rules. The
compiler writes 0 for an omitted protocol, for an unknown one, for an omitted port
and for port 0; the lookup drops the port before the protocol and never the
protocol alone. A rule with a port and no protocol is therefore missed, and a rule
with an unknown protocol or port 0 is found by flows it does not match.
-/

namespace Caiman.Microseg

/-- The map after the policy has been compiled into an empty one. -/
def PolicySpec.alone (spec : PolicySpec) : PolicyMap :=
  settled (compilePolicy updatePolicyEntry spec) fun _ => none

theorem alone_apply (spec : PolicySpec) (k : PolicyKey) :
    spec.alone k = if k ∈ spec.keys then some spec.val.entry else none :=
  settled_compilePolicy spec _ k

/-! ## Which keys there are -/

/-- The protocol and port under which a rule is written. -/
def PortRule.key (rule : PortRule) : UInt8 × UInt16 := (protoNum rule.protocol, rule.port.getD 0)

def PolicySpec.portKeys (spec : PolicySpec) : List (UInt8 × UInt16) :=
  if (spec.ports.getD []).isEmpty then [(0, 0)] else (spec.ports.getD []).map PortRule.key

theorem mem_keys_iff {spec : PolicySpec} {k : PolicyKey} :
    k ∈ spec.keys ↔
      k.srcId ∈ resolveIdentities spec.sources ∧ k.dstId ∈ resolveIdentities spec.destinations ∧
        (k.proto, k.dstPort) ∈ spec.portKeys := by
  have hports : ∀ src dst, ((portEntries spec src dst).map Prod.fst) =
      spec.portKeys.map fun p => ⟨src, dst, p.1, p.2⟩ := by
    intro src dst
    unfold portEntries PolicySpec.portKeys
    dsimp only
    split
    · rfl
    · simp [PortRule.key, Function.comp_def]
  unfold PolicySpec.keys compiledEntries
  simp only [List.map_flatMap, hports, List.mem_flatMap, List.mem_map]
  constructor
  · rintro ⟨src, hsrc, dst, hdst, p, hp, rfl⟩
    exact ⟨hsrc, hdst, hp⟩
  · rintro ⟨hsrc, hdst, hp⟩
    exact ⟨k.srcId, hsrc, k.dstId, hdst, _, hp, rfl⟩

/-- The protocols and ports a flow is looked up under. -/
def lookedUp (proto : UInt8) (dstPort : UInt16) : List (UInt8 × UInt16) :=
  [(proto, dstPort), (proto, 0), (0, 0)]

/-- The lookup reaches the rule. -/
def PortRule.Found (rule : PortRule) (proto : UInt8) (dstPort : UInt16) : Prop :=
  rule.key ∈ lookedUp proto dstPort

instance (rule : PortRule) (proto : UInt8) (dstPort : UInt16) :
    Decidable (rule.Found proto dstPort) :=
  inferInstanceAs (Decidable (_ ∈ _))

theorem verdict_alone {spec : PolicySpec} {f : Flow}
    (hsrc : f.srcId ∈ resolveIdentities spec.sources)
    (hdst : f.dstId ∈ resolveIdentities spec.destinations) :
    f.verdict spec.alone (fun _ => none) =
      if spec.ports.getD [] = [] ∨ ∃ rule ∈ spec.ports.getD [], rule.Found f.proto f.dstPort then
        spec.action.verdict.code
      else Verdict.deny.code := by
  have hfound : (spec.ports.getD [] = [] ∨
      ∃ rule ∈ spec.ports.getD [], rule.Found f.proto f.dstPort) ↔
        ∃ k ∈ f.lookupKeys, k ∈ spec.keys := by
    have hkeys : (∃ k ∈ f.lookupKeys, k ∈ spec.keys) ↔
        ∃ p ∈ lookedUp f.proto f.dstPort, p ∈ spec.portKeys := by
      simp [Flow.lookupKeys, lookedUp, mem_keys_iff, hsrc, hdst]
    rw [hkeys]
    unfold PolicySpec.portKeys PortRule.Found
    cases hports : spec.ports.getD [] with
    | nil => simp [lookedUp]
    | cons rule rest =>
        simp only [List.isEmpty_cons, Bool.false_eq_true, if_false, List.mem_map]
        constructor
        · rintro (hnil | ⟨r, hr, hin⟩)
          · cases hnil
          · exact ⟨r.key, hin, r, hr, rfl⟩
        · rintro ⟨p, hp, r, hr, rfl⟩
          exact Or.inr ⟨r, hr, hp⟩
  have hvalue : ∀ k v, spec.alone k = some v → v.verdict = spec.action.verdict.code := by
    intro k v hk
    rw [alone_apply] at hk
    split at hk
    · cases hk
      rfl
    · cases hk
  rw [verdict_eq]
  by_cases h : ∃ k ∈ f.lookupKeys, k ∈ spec.keys
  · rw [if_pos (hfound.mpr h)]
    cases hsome : f.lookupKeys.findSome? spec.alone with
    | none =>
        obtain ⟨k, hk, hmem⟩ := h
        have hnone := List.findSome?_eq_none_iff.mp hsome k hk
        simp [alone_apply, hmem] at hnone
    | some v =>
        obtain ⟨k, -, hk⟩ := List.exists_of_findSome?_eq_some hsome
        simpa using hvalue k v hk
  · rw [if_neg (fun hf => h (hfound.mp hf))]
    have hnone : f.lookupKeys.findSome? spec.alone = none := by
      rw [List.findSome?_eq_none_iff]
      intro k hk
      have hmem : k ∉ spec.keys := fun hin => h ⟨k, hk, hin⟩
      simp [alone_apply, hmem]
    rw [hnone]
    rfl

/-! ## Found against matched -/

namespace PortRule

/-- A port without a protocol, seen by a flow with one: written under protocol 0 and
that port, where the lookup does not look. -/
def Missed (rule : PortRule) (proto : UInt8) : Prop :=
  rule.protocol = none ∧ rule.port.getD 0 ≠ 0 ∧ proto ≠ 0

/-- A protocol name that the compiler turns into 0. -/
def Unknown (rule : PortRule) : Prop := rule.protocol ≠ none ∧ protoNum rule.protocol = 0

def Widened (rule : PortRule) (proto : UInt8) (dstPort : UInt16) : Prop :=
  (rule.Unknown ∧ (rule.port.getD 0 = 0 ∨ (proto = 0 ∧ rule.port.getD 0 = dstPort))) ∨
    (rule.port = some 0 ∧ dstPort ≠ 0 ∧ protocolMatches rule.protocol proto = true)

instance (rule : PortRule) (proto : UInt8) : Decidable (rule.Missed proto) :=
  inferInstanceAs (Decidable (_ ∧ _ ∧ _))

instance (rule : PortRule) : Decidable rule.Unknown := inferInstanceAs (Decidable (_ ∧ _))

instance (rule : PortRule) (proto : UInt8) (dstPort : UInt16) :
    Decidable (rule.Widened proto dstPort) :=
  inferInstanceAs (Decidable (_ ∨ _))

theorem found_iff_key {rule : PortRule} {proto : UInt8} {dstPort : UInt16} :
    rule.Found proto dstPort ↔
      (protoNum rule.protocol = proto ∧ (rule.port.getD 0 = dstPort ∨ rule.port.getD 0 = 0)) ∨
        (protoNum rule.protocol = 0 ∧ rule.port.getD 0 = 0) := by
  unfold Found lookedUp key
  simp only [List.mem_cons, Prod.mk.injEq, List.not_mem_nil, or_false]
  tauto

theorem found_iff_of_any {port : Option UInt16} {proto : UInt8} {dstPort : UInt16} :
    (⟨none, port⟩ : PortRule).Found proto dstPort ↔
      ((⟨none, port⟩ : PortRule).Matches proto dstPort ∧ ¬ (⟨none, port⟩ : PortRule).Missed proto) ∨
        (⟨none, port⟩ : PortRule).Widened proto dstPort := by
  rw [found_iff_key]
  unfold Matches Missed Widened Unknown
  cases port with
  | none => simp [protoNum, protocolMatches, portMatches]
  | some q =>
      simp only [protoNum, protocolMatches, portMatches, Option.getD_some, Option.some.injEq,
        beq_iff_eq]
      grind

theorem found_iff_of_name {name : String} {port : Option UInt16} {proto : UInt8}
    {dstPort : UInt16} :
    (⟨some name, port⟩ : PortRule).Found proto dstPort ↔
      ((⟨some name, port⟩ : PortRule).Matches proto dstPort ∧
          ¬ (⟨some name, port⟩ : PortRule).Missed proto) ∨
        (⟨some name, port⟩ : PortRule).Widened proto dstPort := by
  rw [found_iff_key]
  unfold Matches Missed Widened Unknown portMatches
  rw [protocolMatches_some]
  cases port with
  | none =>
      simp only [Option.getD_none]
      grind
  | some q =>
      simp only [Option.getD_some, Option.some.injEq, beq_iff_eq]
      grind

/-- A rule is found where it matches and is not missed, and where it is widened. -/
theorem found_iff {rule : PortRule} {proto : UInt8} {dstPort : UInt16} :
    rule.Found proto dstPort ↔
      (rule.Matches proto dstPort ∧ ¬ rule.Missed proto) ∨ rule.Widened proto dstPort := by
  obtain ⟨protocol, port⟩ := rule
  cases protocol with
  | none => exact found_iff_of_any
  | some name => exact found_iff_of_name

end PortRule

/-- The verdict on the flow is the policy's action if the ports match, and the
built-in one otherwise. -/
def PolicySpec.Agrees (spec : PolicySpec) (f : Flow) : Prop :=
  f.verdict spec.alone (fun _ => none) =
    if spec.PortsMatch f.proto f.dstPort then spec.action.verdict.code else Verdict.deny.code

instance (spec : PolicySpec) (f : Flow) : Decidable (spec.Agrees f) :=
  inferInstanceAs (Decidable (_ = _))

/-- For every policy compiled on its own and every flow between its identities: the
verdict is what the port rules say exactly when the policy denies anyway, or a rule
that matches the flow is also found and no flow is found that none matches. -/
theorem port_rules_agree_iff (spec : PolicySpec) (f : Flow)
    (hsrc : f.srcId ∈ resolveIdentities spec.sources)
    (hdst : f.dstId ∈ resolveIdentities spec.destinations) :
    spec.Agrees f ↔
      spec.action = .deny ∨
        (((∃ rule ∈ spec.ports.getD [], rule.Matches f.proto f.dstPort) →
            ∃ rule ∈ spec.ports.getD [], (rule.Matches f.proto f.dstPort ∧ ¬ rule.Missed f.proto) ∨
              rule.Widened f.proto f.dstPort) ∧
          ((∃ rule ∈ spec.ports.getD [], rule.Widened f.proto f.dstPort) →
            ∃ rule ∈ spec.ports.getD [], rule.Matches f.proto f.dstPort)) := by
  have hcode : spec.action.verdict.code = Verdict.deny.code ↔ spec.action = .deny := by
    cases spec.action <;> decide
  unfold PolicySpec.Agrees PolicySpec.PortsMatch
  rw [verdict_alone hsrc hdst]
  simp only [PortRule.found_iff]
  by_cases hnil : spec.ports.getD [] = []
  · simp [hnil]
  simp only [hnil, false_or]
  by_cases hmatch : ∃ r ∈ spec.ports.getD [], r.Matches f.proto f.dstPort
  · by_cases hfound : ∃ r ∈ spec.ports.getD [],
        (r.Matches f.proto f.dstPort ∧ ¬ r.Missed f.proto) ∨ r.Widened f.proto f.dstPort
    · simp only [hmatch, hfound, if_true, implies_true, and_self, or_true]
    · -- a match that is not found
      simp only [hmatch, hfound, if_true, if_false, true_implies, false_and, or_false]
      rw [eq_comm, hcode]
  · -- nothing matches, so whatever is found is widened
    have hplain : (∃ r ∈ spec.ports.getD [],
        (r.Matches f.proto f.dstPort ∧ ¬ r.Missed f.proto) ∨ r.Widened f.proto f.dstPort) ↔
          ∃ r ∈ spec.ports.getD [], r.Widened f.proto f.dstPort := by
      constructor
      · rintro ⟨r, hr, ⟨hm, -⟩ | hw⟩
        · exact absurd ⟨r, hr, hm⟩ hmatch
        · exact ⟨r, hr, hw⟩
      · rintro ⟨r, hr, hw⟩
        exact ⟨r, hr, Or.inr hw⟩
    simp only [hplain, hmatch, if_false, false_implies, true_and, imp_false]
    by_cases hwide : ∃ r ∈ spec.ports.getD [], r.Widened f.proto f.dstPort
    · simp only [hwide, if_true, not_true_eq_false, or_false]
      exact hcode
    · simp only [hwide, if_false, not_false_eq_true, or_true]

theorem port_rules_agree_iff_webToDb :
    let f : Flow := ⟨labelsToIdentity ⟨[("app", "web")], by decide⟩,
      labelsToIdentity ⟨[("app", "db")], by decide⟩, 6, 5432⟩
    webToDb.Agrees f ↔
      webToDb.action = .deny ∨
        (((∃ rule ∈ webToDb.ports.getD [], rule.Matches f.proto f.dstPort) →
            ∃ rule ∈ webToDb.ports.getD [],
              (rule.Matches f.proto f.dstPort ∧ ¬ rule.Missed f.proto) ∨
                rule.Widened f.proto f.dstPort) ∧
          ((∃ rule ∈ webToDb.ports.getD [], rule.Widened f.proto f.dstPort) →
            ∃ rule ∈ webToDb.ports.getD [], rule.Matches f.proto f.dstPort)) :=
  port_rules_agree_iff webToDb _ (by decide +kernel) (by decide +kernel)

/-- Port 5432 of any protocol is denied on TCP, and a protocol of an unknown name is
allowed on every one. -/
theorem port_rules_missed_and_widened :
    let web := labelsToIdentity ⟨[("app", "web")], by decide⟩
    let db := labelsToIdentity ⟨[("app", "db")], by decide⟩
    let anyProtocol : PolicySpec := { webToDb with ports := some [⟨none, some 5432⟩] }
    let unknownName : PolicySpec := { webToDb with ports := some [⟨some "SCTP", none⟩] }
    (web ∈ resolveIdentities webToDb.sources ∧ db ∈ resolveIdentities webToDb.destinations) ∧
      (anyProtocol.PortsMatch 6 5432 ∧
        Flow.verdict anyProtocol.alone (fun _ => none) ⟨web, db, 6, 5432⟩ = Verdict.deny.code) ∧
      ¬ unknownName.PortsMatch 6 22 ∧
        Flow.verdict unknownName.alone (fun _ => none) ⟨web, db, 6, 22⟩ = Verdict.allow.code := by
  decide +kernel

end Caiman.Microseg
