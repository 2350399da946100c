import Mathlib.Data.List.Basic

/-!
# Words of a shell command

The quoting rules of a POSIX shell on one line, as far as they go without expanding
anything. The reader gives up a line that asks for more than its own characters, be it an
expansion, a pattern, an operator or a comment, and one that ends inside quotes.
-/

namespace Caiman.Lib.Shell

inductive Mode
  | outside
  | single
  | double
  /-- behind a backslash outside quotes -/
  | escape
  /-- behind a backslash in double quotes -/
  | doubleEscape
  deriving DecidableEq, Repr

/-- What has been read of a line. `word` is the word begun, empty quotes beginning one. -/
structure Line where
  mode : Mode
  word : Option (List Char)
  words : List (List Char)
  deriving DecidableEq, Repr

/-- The characters that do not stand for themselves outside quotes, or may not; blanks, quotes
and the backslash apart. -/
def special : List Char :=
  ['|', '&', ';', '<', '>', '(', ')', '$', '`', '*', '?', '[', ']', '#', '~', '=', '%', '{', '}',
    '!', '^', '\n']

namespace Line

def start : Line := ⟨.outside, none, []⟩

def put (l : Line) (mode : Mode) (c : Char) : Line :=
  { l with mode := mode, word := some (l.word.getD [] ++ [c]) }

def openQuote (l : Line) (mode : Mode) : Line :=
  { l with mode := mode, word := some (l.word.getD []) }

def endWord (l : Line) : Line := { l with word := none, words := l.words ++ l.word.toList }

def step (l : Line) (c : Char) : Option Line :=
  if c = '\x00' then none
  else
    match l.mode with
    | .outside =>
        if c = ' ' ∨ c = '\t' then some l.endWord
        else if c = '\'' then some (l.openQuote .single)
        else if c = '"' then some (l.openQuote .double)
        else if c = '\\' then some { l with mode := .escape }
        else if c ∈ special then none
        else some (l.put .outside c)
    | .single => if c = '\'' then some { l with mode := .outside } else some (l.put .single c)
    | .double =>
        if c = '"' then some { l with mode := .outside }
        else if c = '\\' then some { l with mode := .doubleEscape }
        else if c = '$' ∨ c = '`' then none
        else some (l.put .double c)
    | .escape =>
        -- a line continued
        if c = '\n' then some { l with mode := .outside } else some (l.put .outside c)
    | .doubleEscape =>
        if c = '\n' then some { l with mode := .double }
        else if c = '$' ∨ c = '`' ∨ c = '"' ∨ c = '\\' then some (l.put .double c)
        else some ((l.put .double '\\').put .double c)

def finish (l : Line) : Option (List (List Char)) :=
  if l.mode = .outside then some l.endWord.words else none

end Line

/-- The words of the command line. -/
def words (line : String) : Option (List String) :=
  ((line.toList.foldlM Line.step .start).bind Line.finish).map fun ws => ws.map String.ofList

variable {l : Line}

theorem step_single (hmode : l.mode = .single) {c : Char} (hnul : c ≠ '\x00') (hc : c ≠ '\'') :
    l.step c = some (l.put .single c) := by
  rw [Line.step, if_neg hnul, hmode]
  exact if_neg hc

theorem step_close (hmode : l.mode = .single) : l.step '\'' = some { l with mode := .outside } := by
  rw [Line.step, if_neg (by decide), hmode]
  exact if_pos rfl

theorem step_open (hmode : l.mode = .outside) : l.step '\'' = some (l.openQuote .single) := by
  rw [Line.step, if_neg (by decide), hmode]
  rfl

theorem step_backslash (hmode : l.mode = .outside) : l.step '\\' = some { l with mode := .escape } := by
  rw [Line.step, if_neg (by decide), hmode]
  rfl

theorem step_escaped (hmode : l.mode = .escape) {c : Char} (hnul : c ≠ '\x00') (hc : c ≠ '\n') :
    l.step c = some (l.put .outside c) := by
  rw [Line.step, if_neg hnul, hmode]
  exact if_neg hc

/-- A quote on the inside of single quotes: they are closed, it is escaped, and they are opened
again. -/
theorem read_quote (hmode : l.mode = .single) (rest : List Char) :
    ('\'' :: '\\' :: '\'' :: '\'' :: rest).foldlM Line.step l =
      rest.foldlM Line.step (l.put .single '\'') := by
  rw [List.foldlM_cons, step_close hmode]
  dsimp only [Option.bind_eq_bind, Option.bind_some]
  rw [List.foldlM_cons, step_backslash rfl]
  dsimp only [Option.bind_eq_bind, Option.bind_some]
  rw [List.foldlM_cons, step_escaped rfl (by decide) (by decide)]
  dsimp only [Option.bind_eq_bind, Option.bind_some]
  rw [List.foldlM_cons, step_open rfl]
  rfl

end Caiman.Lib.Shell
