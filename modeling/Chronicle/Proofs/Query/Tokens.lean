import Chronicle.Proofs.Log.Limits
import Mathlib.Data.List.Forall2

/-!
# The tokens of query texts

A lexer for the queries of the library. Outside literals it takes words, operators,
commas, parentheses, blanks and question marks, and nothing else: no other way to write
a text or a name, no comment and no numbered parameter. Between quotes it takes all
characters but NUL, where two quotes stand for one (`Lexer.lex`).

The lexer reads a text piece by piece where the pieces are set apart by a blank, a comma
or a parenthesis (`Lexer.Reads.append`), so what a text put together from pieces spells
can be told from the pieces. What is read is an `Outline`, the list of tokens with the
parameters that their marks stand for.
-/

namespace Chronicle

/-- A token of a query. A mark carries what is known of its parameter. -/
inductive Token (α : Type) where
  /-- A word or a number. -/
  | word (text : String)
  | operator (text : String)
  | comma
  | opening
  | closing
  | mark (slot : α)
  /-- A literal with what it stands for. -/
  | literal (content : String)
  deriving DecidableEq

namespace Token

variable {α : Type}

/-- The token without what is known of a parameter. -/
def erase : Token α → Token Unit
  | word text => .word text
  | operator text => .operator text
  | comma => .comma
  | opening => .opening
  | closing => .closing
  | mark _ => .mark ()
  | literal content => .literal content

/-- The parameter of a mark. -/
def slot? : Token α → Option α
  | mark slot => some slot
  | _ => none

/-- The content of a literal. -/
def literal? : Token α → Option String
  | literal content => some content
  | _ => none

def isMark : Token α → Bool
  | mark _ => true
  | _ => false

/-- The token without the content of a literal. -/
def shape : Token α → Token α
  | literal _ => .literal ""
  | other => other

/-- The parentheses close, within as many that are open before. -/
def closes : List (Token α) → Nat → Bool
  | [], depth => depth = 0
  | .opening :: rest, depth => closes rest (depth + 1)
  | .closing :: _, 0 => false
  | .closing :: rest, depth + 1 => closes rest depth
  | _ :: rest, depth => closes rest depth

/-- The tokens close the parentheses that they open, and no others. -/
def Balanced (tokens : List (Token α)) : Prop :=
  ∀ rest depth, closes (tokens ++ rest) depth = closes rest depth

variable {x y : List (Token α)}

theorem Balanced.closes (balanced : Balanced x) : Token.closes x 0 := by
  have alone := balanced [] 0
  rw [List.append_nil] at alone
  rw [alone]
  rfl

theorem Balanced.append (first : Balanced x) (second : Balanced y) : Balanced (x ++ y) := by
  intro rest depth
  rw [List.append_assoc, first, second]

theorem Balanced.parenthesized (balanced : Balanced x) :
    Balanced (.opening :: x ++ [.closing]) := by
  intro rest depth
  rw [List.append_assoc]
  exact balanced (.closing :: rest) (depth + 1)

theorem balanced_intercalate (separator : Balanced x) {parts : List (List (Token α))}
    (each : ∀ part ∈ parts, Balanced part) : Balanced (x.intercalate parts) := by
  induction parts with
  | nil => exact fun _ _ => rfl
  | cons first others ih =>
    rw [List.forall_mem_cons] at each
    cases others with
    | nil => simpa using each.1
    | cons second rest =>
      rw [List.intercalate_cons_cons]
      exact (each.1.append separator).append (ih each.2)

/-! What the lexer does not see of tokens is what their marks stand for. -/

theorem closes_erase (tokens : List (Token α)) (depth : Nat) :
    closes (tokens.map erase) depth = closes tokens depth := by
  induction tokens generalizing depth with
  | nil => rfl
  | cons token rest ih =>
    cases token with
    | closing =>
      cases depth with
      | zero => rfl
      | succ depth => exact ih depth
    | opening => exact ih (depth + 1)
    | _ => exact ih depth

theorem literals_erase (tokens : List (Token α)) :
    (tokens.map erase).filterMap literal? = tokens.filterMap literal? := by
  rw [List.filterMap_map]
  exact List.filterMap_congr fun token _ => by cases token <;> rfl

theorem countP_isMark_erase (tokens : List (Token α)) :
    (tokens.map erase).countP isMark = (tokens.filterMap slot?).length := by
  rw [List.countP_map, List.length_filterMap_eq_countP]
  exact List.countP_congr fun token _ => by cases token <;> simp [erase, isMark, slot?]

theorem map_shape_erase (tokens : List (Token α)) :
    (tokens.map erase).map shape = (tokens.map shape).map erase := by
  rw [List.map_map, List.map_map]
  exact List.map_congr_left fun token _ => by cases token <;> rfl

theorem slots_shape (tokens : List (Token α)) :
    (tokens.map shape).filterMap slot? = tokens.filterMap slot? := by
  rw [List.filterMap_map]
  exact List.filterMap_congr fun token _ => by cases token <;> rfl

end Token

/-- The tokens of a query whose marks carry their parameters. -/
abbrev Outline := List (Token Param)

/-- The path that a field name is put into. -/
def fieldPath (field : String) : String := "$.\"" ++ field ++ "\""

/-! ## The lexer -/

namespace Lexer

/-- The character sets the tokens around it apart. -/
def isSeparator (c : Char) : Bool := c = ' ' || c = '(' || c = ')' || c = ','

def isWordChar (c : Char) : Bool := c.isAlphanum || c = '_'

def isOperatorChar (c : Char) : Bool := c = '<' || c = '=' || c = '>' || c = '!'

/-- Where the lexer stands: between tokens, in a word, an operator or a literal, after a
question mark, or after a quote that ends a literal unless another one follows. -/
inductive Mode where
  | between
  | word (read : List Char)
  | operator (read : List Char)
  | mark
  | literal (read : List Char)
  | quote (read : List Char)
  deriving DecidableEq

/-- Read a character that is not part of a token before it. -/
def start (c : Char) : Option (List (Token Unit) × Mode) :=
  if c = ' ' then some ([], .between)
  else if c = ',' then some ([.comma], .between)
  else if c = '(' then some ([.opening], .between)
  else if c = ')' then some ([.closing], .between)
  else if c = '?' then some ([], .mark)
  else if c = '\'' then some ([], .literal [])
  else if isWordChar c then some ([], .word [c])
  else if isOperatorChar c then some ([], .operator [c])
  else none

/-- Read a character after a token that it has to set apart from the next one. -/
def startAfter (token : Token Unit) (c : Char) : Option (List (Token Unit) × Mode) :=
  if isSeparator c then (start c).map fun (tokens, mode) => (token :: tokens, mode) else none

/-- Read a character: the tokens that have ended, and where the lexer then stands. -/
def step : Mode → Char → Option (List (Token Unit) × Mode)
  | .between, c => start c
  | .word read, c =>
    if isWordChar c then some ([], .word (read ++ [c])) else startAfter (.word (.ofList read)) c
  | .operator read, c =>
    if isOperatorChar c then some ([], .operator (read ++ [c]))
    else startAfter (.operator (.ofList read)) c
  | .mark, c => startAfter (.mark ()) c
  | .literal read, c =>
    if c = '\'' then some ([], .quote read)
    else if c = Char.ofNat 0 then none
    else some ([], .literal (read ++ [c]))
  | .quote read, c =>
    if c = '\'' then some ([], .literal (read ++ ['\'']))
    else startAfter (.literal (.ofList read)) c

def run : Mode → List Char → Option (List (Token Unit) × Mode)
  | mode, [] => some ([], mode)
  | mode, c :: rest => do
    let (tokens, mode) ← step mode c
    let (more, mode) ← run mode rest
    return (tokens ++ more, mode)

/-- The tokens that end with the text. A literal does not. -/
def Mode.ending : Mode → Option (List (Token Unit))
  | between => some []
  | word read => some [.word (.ofList read)]
  | operator read => some [.operator (.ofList read)]
  | mark => some [.mark ()]
  | literal _ => none
  | quote read => some [.literal (.ofList read)]

/-- The tokens of a text, if it consists of tokens. -/
def lex (text : String) : Option (List (Token Unit)) := do
  let (tokens, mode) ← run .between text.toList
  let last ← mode.ending
  return tokens ++ last

/-! ## Pieces of texts -/

theorem run_append (mode : Mode) (front back : List Char) :
    run mode (front ++ back) = (run mode front).bind fun (tokens, mode) =>
      (run mode back).map fun (more, mode) => (tokens ++ more, mode) := by
  induction front generalizing mode with
  | nil => simp [run]
  | cons c rest ih =>
    simp only [List.cons_append, run, ih]
    cases step mode c with
    | none => rfl
    | some stepped =>
      obtain ⟨tokens, mode⟩ := stepped
      simp only [Option.bind_eq_bind, Option.bind_some]
      cases run mode rest with
      | none => rfl
      | some ran =>
        obtain ⟨more, mode⟩ := ran
        cases resumed : run mode back <;> simp [resumed]

/-- A separator ends the token before it. -/
theorem step_of_separator {mode : Mode} {last : List (Token Unit)} (ends : mode.ending = some last)
    {c : Char} (separates : isSeparator c) :
    step mode c = (start c).map fun (tokens, mode) => (last ++ tokens, mode) := by
  have notWord : isWordChar c = false := by
    simp only [isSeparator, Bool.or_eq_true, decide_eq_true_eq] at separates
    rcases separates with ((rfl | rfl) | rfl) | rfl <;> rfl
  have notOperator : isOperatorChar c = false := by
    simp only [isSeparator, Bool.or_eq_true, decide_eq_true_eq] at separates
    rcases separates with ((rfl | rfl) | rfl) | rfl <;> rfl
  have notQuote : c ≠ '\'' := by
    rintro rfl
    cases separates
  cases mode with
  | between =>
    obtain rfl := Option.some.inj ends
    cases started : start c <;> simp [step, started]
  | word read =>
    obtain rfl := Option.some.inj ends
    simp [step, notWord, startAfter, separates]
  | operator read =>
    obtain rfl := Option.some.inj ends
    simp [step, notOperator, startAfter, separates]
  | mark =>
    obtain rfl := Option.some.inj ends
    simp [step, startAfter, separates]
  | literal read => cases ends
  | quote read =>
    obtain rfl := Option.some.inj ends
    simp [step, notQuote, startAfter, separates]

/-- The text begins by setting itself apart from what comes before. -/
def Apart (text : String) : Prop := ∃ c rest, text.toList = c :: rest ∧ isSeparator c

/-- The text spells the outline, and sets itself apart from what follows. -/
def Closed (text : String) (outline : Outline) : Prop :=
  run .between text.toList = some (outline.map Token.erase, .between)

/-- The text spells the outline. Its last token ends with the text if what follows sets
itself apart. -/
def Reads (text : String) (outline : Outline) : Prop :=
  ∃ tokens mode last, run .between text.toList = some (tokens, mode) ∧
    mode.ending = some last ∧ outline.map Token.erase = tokens ++ last

theorem apart_ofList {cs : List Char} {c : Char} (first : cs.head? = some c)
    (separates : isSeparator c) : Apart (String.ofList cs) := by
  cases cs with
  | nil => cases first
  | cons d rest =>
    obtain rfl := Option.some.inj first
    exact ⟨d, rest, String.toList_ofList, separates⟩

theorem closed_ofList {cs : List Char} {outline : Outline}
    (spells : run .between cs = some (outline.map Token.erase, .between)) :
    Closed (String.ofList cs) outline := by
  rw [Closed, String.toList_ofList]
  exact spells

theorem reads_ofList {cs : List Char} {outline : Outline} {tokens last : List (Token Unit)}
    {mode : Mode} (spells : run .between cs = some (tokens, mode)) (ends : mode.ending = some last)
    (all : outline.map Token.erase = tokens ++ last) : Reads (String.ofList cs) outline := by
  refine ⟨tokens, mode, last, ?_, ends, all⟩
  rw [String.toList_ofList]
  exact spells

variable {a b separator : String} {x y z : Outline}

theorem Apart.append (apart : Apart a) (b : String) : Apart (a ++ b) := by
  obtain ⟨c, rest, begins, separates⟩ := apart
  refine ⟨c, rest ++ b.toList, ?_, separates⟩
  rw [String.toList_append, begins]
  rfl

theorem Closed.reads (closed : Closed a x) : Reads a x :=
  ⟨_, .between, [], closed, rfl, (List.append_nil _).symm⟩

theorem Closed.append (first : Closed a x) (second : Closed b y) : Closed (a ++ b) (x ++ y) := by
  rw [Closed, String.toList_append, run_append, first]
  show (run .between b.toList).map _ = _
  rw [second, List.map_append]
  rfl

theorem Closed.append_reads (first : Closed a x) (second : Reads b y) :
    Reads (a ++ b) (x ++ y) := by
  obtain ⟨tokens, mode, last, ran, ends, all⟩ := second
  refine ⟨x.map Token.erase ++ tokens, mode, last, ?_, ends, ?_⟩
  · rw [String.toList_append, run_append, first]
    show (run .between b.toList).map _ = _
    rw [ran]
    rfl
  · rw [List.map_append, all, List.append_assoc]

/-- What sets itself apart is read as if it stood alone. -/
theorem Reads.run_append_apart (first : Reads a x) (apart : Apart b) :
    run .between (a ++ b).toList = (run .between b.toList).map fun (more, mode) =>
      (x.map Token.erase ++ more, mode) := by
  obtain ⟨tokens, mode, last, ran, ends, all⟩ := first
  obtain ⟨c, rest, begins, separates⟩ := apart
  rw [String.toList_append, run_append, ran]
  show (run mode b.toList).map _ = _
  -- The separator ends the last token of the first text and is then read as between tokens.
  rw [begins, run, run, step_of_separator ends separates, step]
  cases start c with
  | none => rfl
  | some started =>
    obtain ⟨begun, next⟩ := started
    simp only [Option.map_some, Option.bind_eq_bind, Option.bind_some]
    cases run next rest with
    | none => rfl
    | some ran =>
      obtain ⟨more, final⟩ := ran
      simp [all]

theorem Reads.append_closed (first : Reads a x) (apart : Apart b) (second : Closed b y) :
    Closed (a ++ b) (x ++ y) := by
  rw [Closed, first.run_append_apart apart, second, List.map_append]
  rfl

theorem Reads.append (first : Reads a x) (apart : Apart b) (second : Reads b y) :
    Reads (a ++ b) (x ++ y) := by
  obtain ⟨tokens, mode, last, ran, ends, all⟩ := second
  refine ⟨x.map Token.erase ++ tokens, mode, last, ?_, ends, ?_⟩
  · rw [first.run_append_apart apart, ran]
    rfl
  · rw [List.map_append, all, List.append_assoc]

theorem reads_nil : Reads "" [] := ⟨[], .between, [], rfl, rfl, rfl⟩

theorem reads_intercalate {texts : List String} {outlines : List Outline}
    (apart : Apart separator) (closed : Closed separator z)
    (each : List.Forall₂ Reads texts outlines) :
    Reads (separator.intercalate texts) (z.intercalate outlines) := by
  induction each with
  | nil => exact reads_nil
  | @cons text outline texts outlines first rest ih =>
    cases rest with
    | nil => simpa using first
    | cons second others =>
      rw [String.intercalate_cons_cons, List.intercalate_cons_cons]
      exact (first.append_closed apart closed).append_reads ih

/-- A text between quotes, with its own quotes doubled, is read as a literal. -/
theorem run_doubleQuotes (read : List Char) {cs : List Char} (clean : Char.ofNat 0 ∉ cs) :
    run (.literal read) (doubleQuotes cs) = some ([], .literal (read ++ cs)) := by
  induction cs generalizing read with
  | nil => simp [doubleQuotes, run]
  | cons c rest ih =>
    obtain ⟨notNul, cleanRest⟩ := not_or.1 (mt List.mem_cons.2 clean)
    rw [doubleQuotes]
    split
    · rename_i isQuote
      subst isQuote
      -- The second quote leads back into the literal that the first one seems to end.
      simp [run, step, ih _ cleanRest]
    · rename_i notQuote
      simp [run, step, notQuote, Ne.symm notNul, ih _ cleanRest]

/-- Whatever else its name has, the path of a field is one literal. -/
theorem reads_pathLiteral {field : String} (clean : ¬ HasNul field) :
    Reads (pathLiteral field) [.literal (fieldPath field)] := by
  have inside := run_doubleQuotes ['$', '.', '"'] clean
  have spelled : (pathLiteral field).toList =
      ['\'', '$', '.', '"'] ++ (doubleQuotes field.toList ++ ['"', '\'']) := by
    simp [pathLiteral, String.toList_append]
  refine ⟨[], .quote (['$', '.', '"'] ++ field.toList ++ ['"']), _, ?_, rfl, ?_⟩
  · rw [spelled, run_append]
    show (run (.literal ['$', '.', '"']) _).map _ = _
    rw [run_append, inside]
    rfl
  · have content : fieldPath field = .ofList (['$', '.', '"'] ++ field.toList ++ ['"']) := by
      rw [fieldPath, String.ofList_append, String.ofList_append, String.ofList_toList]
    rw [content]
    rfl

theorem lex_of_reads (reads : Reads a x) : lex a = some (x.map Token.erase) := by
  obtain ⟨tokens, mode, last, ran, ends, all⟩ := reads
  rw [lex, ran, all]
  show (mode.ending).bind _ = _
  rw [ends]
  rfl

example : lex (pathLiteral "it's ?") = some [.literal "$.\"it's ?\""] := by decide +kernel

end Lexer

end Chronicle
