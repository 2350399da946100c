import Caiman.Bridge.Acquire
import Caiman.Lib.Shell

/-!
# The command line

What a shell makes of the line `acquire_disk` sends. A path is put in single quotes, a quote in
it being closed over, escaped and opened again.
-/

namespace Caiman.Bridge

open Lib Shell

def quotedChar (ch : Char) : List Char := if ch = '\'' then ['\'', '\\', '\'', '\''] else [ch]

theorem shellSingleQuote_toList (s : String) :
    (shellSingleQuote s).toList = '\'' :: (s.toList.flatMap quotedChar ++ ['\'']) := by
  have hbody : ∀ (cs : List Char) (out : String),
      (cs.foldl (fun out ch => if ch = '\'' then out ++ "'\\''" else out.push ch) out).toList =
        out.toList ++ cs.flatMap quotedChar := by
    intro cs
    induction cs with
    | nil => simp
    | cons ch cs ih =>
        intro out
        rw [List.foldl_cons, ih, List.flatMap_cons, quotedChar]
        by_cases hquote : ch = '\''
        · rw [if_pos hquote, if_pos hquote, String.toList_append, List.append_assoc]
          rfl
        · rw [if_neg hquote, if_neg hquote, String.toList_push, List.append_assoc]
  rw [shellSingleQuote, String.toList_push, hbody]
  rfl

theorem read_quotedChar {l : Line} (hmode : l.mode = .single) {c : Char} (hnul : c ≠ '\x00')
    (rest : List Char) :
    (quotedChar c ++ rest).foldlM Line.step l = rest.foldlM Line.step (l.put .single c) := by
  rw [quotedChar]
  by_cases hquote : c = '\''
  · subst hquote
    rw [if_pos rfl]
    exact read_quote hmode rest
  · rw [if_neg hquote, List.singleton_append, List.foldlM_cons, step_single hmode hnul hquote]
    rfl

theorem read_quoted {l : Line} (hmode : l.mode = .single) {word cs : List Char}
    (hword : l.word = some word) (hnul : '\x00' ∉ cs) (rest : List Char) :
    (cs.flatMap quotedChar ++ rest).foldlM Line.step l =
      rest.foldlM Line.step { l with word := some (word ++ cs) } := by
  induction cs generalizing l word with
  | nil =>
      have hsame : { l with word := some (word ++ []) } = l := by
        rw [List.append_nil, ← hword]
      rw [hsame]
      rfl
  | cons c cs ih =>
      have hc : c ≠ '\x00' := fun hc => hnul (hc ▸ List.mem_cons_self)
      have hput : (l.put .single c).word = some (word ++ [c]) := by
        rw [Line.put, hword]
        rfl
      rw [List.flatMap_cons, List.append_assoc, read_quotedChar hmode hc,
        ih rfl hput fun hcs => hnul (List.mem_cons_of_mem c hcs), List.append_assoc, Line.put, hmode]
      rfl

/-- Reading a quoted text outside quotes appends it to the word that stands there, and begins
one where none does. -/
theorem read_shellSingleQuote {l : Line} (hmode : l.mode = .outside) {s : String}
    (hnul : '\x00' ∉ s.toList) :
    (shellSingleQuote s).toList.foldlM Line.step l =
      some { l with word := some (l.word.getD [] ++ s.toList) } := by
  rw [shellSingleQuote_toList, List.foldlM_cons, step_open hmode]
  dsimp only [Option.bind_eq_bind, Option.bind_some]
  rw [read_quoted rfl rfl hnul, List.foldlM_cons, step_close rfl, Line.openQuote, hmode]
  rfl

theorem words_shellSingleQuote {s : String} (hnul : '\x00' ∉ s.toList) :
    words (shellSingleQuote s) = some [s] := by
  rw [words, read_shellSingleQuote rfl hnul]
  exact congrArg (fun w => some [w]) String.ofList_toList

theorem words_catCommand {path : String} (hnul : '\x00' ∉ path.toList) :
    words (catCommand path) = some ["cat", path] := by
  have hcat : "cat ".toList.foldlM Line.step .start = some ⟨.outside, none, ["cat".toList]⟩ := by
    decide
  rw [words, catCommand, String.toList_append, List.foldlM_append, hcat]
  dsimp only [Option.bind_eq_bind, Option.bind_some]
  rw [read_shellSingleQuote rfl hnul]
  exact congrArg (fun w => some ["cat", w]) String.ofList_toList

/-! ## What is sent -/

/-- No command has been sent but the one for the path. -/
def OnlyCat (remotePath : String) (s : Acquisition) : Prop :=
  ∀ command ∈ s.commands, command = catCommand remotePath

theorem attempt_spec {α : Type} (P : Acquisition → Prop) (err : String → AcquireError)
    (result : Except String α) :
    Triple P (attempt err result) (fun _ => P) (fun _ => P) := by
  cases result with
  | ok a => exact Triple.pure fun _ hs => hs
  | error text => exact Triple.throw fun _ hs => hs

theorem authenticate_spec (P : Acquisition → Prop) (calls : Calls) (auth : SshAuth) :
    Triple P (authenticate calls auth) (fun _ => P) (fun _ => P) := by
  have hverdict : Triple P (do
      let success ← attempt .ssh calls.authenticate
      if success then pure () else throw AcquireError.authFailed)
      (fun _ => P) (fun _ => P) := by
    apply Triple.bind (attempt_spec P _ _)
    intro success
    apply Triple.ite
    · exact fun _ => Triple.pure fun _ hs => hs
    · exact fun _ => Triple.throw fun _ hs => hs
  cases auth with
  | key path passphrase =>
      apply Triple.bind (attempt_spec P _ _)
      intro _
      apply Triple.bind (attempt_spec P _ _)
      exact fun _ => hverdict
  | password pw => exact hverdict

theorem startCommand_spec (calls : Calls) (target : SshTarget) (remotePath : String) :
    Triple (OnlyCat remotePath) (startCommand calls target remotePath)
      (fun _ => OnlyCat remotePath) (fun _ => OnlyCat remotePath) := by
  unfold startCommand
  apply Triple.bind (attempt_spec _ _ _)
  intro _
  apply Triple.bind (authenticate_spec _ _ _)
  intro _
  apply Triple.bind (attempt_spec _ _ _)
  intro _
  apply Triple.bind (attempt_spec _ _ _)
  intro _
  apply Triple.modify
  intro s hs command hcommand
  rcases List.mem_append.mp hcommand with hsent | hnew
  · exact hs command hsent
  · exact List.mem_singleton.mp hnew

theorem writeStaging_commands {remotePath : String} (calls : Calls) (data : List UInt8) :
    Triple (OnlyCat remotePath) (writeStaging calls data) (fun _ => OnlyCat remotePath)
      (fun _ => OnlyCat remotePath) := by
  unfold writeStaging
  apply Triple.get
  intro s hs
  have hsame : Triple (fun t => t = s) (attempt AcquireError.io
      (calls.writeAll (s.staging.getD []) data)) (fun _ t => t = s)
      (fun _ => OnlyCat remotePath) :=
    (attempt_spec _ _ _).imp_error fun _ t ht => ht ▸ hs
  apply Triple.bind hsame
  intro _
  apply Triple.ite
  · intro _
    exact Triple.throw fun t ht => ht ▸ hs
  · intro _
    exact Triple.modify fun t ht => ht ▸ hs

theorem onMessage_commands {remotePath : String} (calls : Calls) (r : Received)
    (m : ChannelMsg) :
    Triple (OnlyCat remotePath) (onMessage calls r m) (fun _ => OnlyCat remotePath)
      (fun _ => OnlyCat remotePath) := by
  cases m with
  | data bytes =>
      apply Triple.bind (writeStaging_commands calls bytes)
      exact fun _ => Triple.pure fun _ hs => hs
  | extendedData bytes ext =>
      apply Triple.ite
      · exact fun _ => Triple.pure fun _ hs => hs
      · exact fun _ => Triple.pure fun _ hs => hs
  | exitStatus code => exact Triple.pure fun _ hs => hs
  | other => exact Triple.pure fun _ hs => hs

theorem createStaging_commands {remotePath : String} (calls : Calls) (localStaging : String) :
    Triple (OnlyCat remotePath) (createStaging calls localStaging)
      (fun _ => OnlyCat remotePath) (fun _ => OnlyCat remotePath) := by
  have hcreate : Triple (OnlyCat remotePath) (do
      attempt AcquireError.io calls.create
      modify fun s => { s with staging := some [] })
      (fun _ => OnlyCat remotePath) (fun _ => OnlyCat remotePath) := by
    apply Triple.bind (attempt_spec _ _ _)
    exact fun _ => Triple.modify fun _ hs => hs
  unfold createStaging
  apply Triple.ite
  · intro _
    exact Triple.bind (attempt_spec _ _ _) fun _ => hcreate
  · exact fun _ => hcreate

theorem acquireDisk_commands (calls : Calls) (target : SshTarget)
    (remotePath localStaging : String) :
    Triple (OnlyCat remotePath) (acquireDisk calls target remotePath localStaging)
      (fun _ => OnlyCat remotePath) (fun _ => OnlyCat remotePath) := by
  unfold acquireDisk
  apply Triple.bind (startCommand_spec _ _ _)
  intro _
  apply Triple.bind (createStaging_commands _ _)
  intro _
  apply Triple.bind (Triple.foldlM (I := fun _ _ => OnlyCat remotePath)
    (fun _ m _ _ r => onMessage_commands calls r m) _)
  intro r
  apply Triple.bind (attempt_spec _ _ _)
  intro _
  unfold verdict
  cases r.exitCode with
  | none => exact Triple.throw fun _ hs => hs
  | some code =>
      apply Triple.ite
      · exact fun _ => Triple.pure fun _ hs => hs
      · exact fun _ => Triple.throw fun _ hs => hs

/-- The commands a call has sent by the time it comes back, with a value or an error. -/
def sentCommands {α : Type} : EStateM.Result AcquireError Acquisition α → List String
  | .ok _ s => s.commands
  | .error _ s => s.commands

/-- Whatever the text, the shell reads its quoted form as the one word it is, and every command
that is sent to fetch a path as `cat` with the path for its argument. -/
theorem quoting_exact (s : String) (hnul : '\x00' ∉ s.toList) :
    words (shellSingleQuote s) = some [s] ∧
      words (catCommand s) = some ["cat", s] ∧
        ∀ (calls : Calls) (target : SshTarget) (localStaging : String),
          ∀ command ∈ sentCommands ((acquireDisk calls target s localStaging).run ⟨[], none⟩),
            words command = some ["cat", s] := by
  refine ⟨words_shellSingleQuote hnul, words_catCommand hnul, ?_⟩
  intro calls target localStaging command hcommand
  have hspec := acquireDisk_commands calls target s localStaging ⟨[], none⟩ fun _ h => nomatch h
  have honly : command = catCommand s := by
    cases hrun : (acquireDisk calls target s localStaging).run ⟨[], none⟩ with
    | ok n final =>
        rw [hrun] at hspec hcommand
        exact hspec command hcommand
    | error e final =>
        rw [hrun] at hspec hcommand
        exact hspec command hcommand
  rw [honly]
  exact words_catCommand hnul

theorem quoting_exact_sample :
    words (shellSingleQuote "/vm/it's $HOME\n\\''") = some ["/vm/it's $HOME\n\\''"] ∧
      words (catCommand "/vm/it's $HOME\n\\''") = some ["cat", "/vm/it's $HOME\n\\''"] := by
  have hexact := quoting_exact "/vm/it's $HOME\n\\''" (by decide)
  exact ⟨hexact.1, hexact.2.1⟩

end Caiman.Bridge
