import DocCoverage.Overlay.Reader
import DocCoverage.Proofs.Overlay.Spelling

/-! # The entries of a TOML text

An overlay is written by people, so its text may hold anything that TOML allows: keys that are
no setting or have several parts, values of any kind, strings on several lines, and entries
that come twice.  `Document` relates a list of entries to all its texts, whether or not they
make an overlay.  Each rule follows the grammar of TOML 1.0 for a text without the headers of
tables.  A number, a truth value or a point in time has no part here but its characters, since
no setting takes one; every spelling that TOML has for them is a run of these characters.

Two rules of TOML are not in the shape of its grammar.  A line break right behind the marks
that open a string of several lines does not count, and a backslash at the end of a line takes
with it all blanks and line breaks up to what comes next.  So each of these rules says what may
not follow. -/

namespace DocCoverage.Overlay

/-! ## Strings of several lines -/

/-- The rest of a line behind a backslash, and what a backslash takes with it of the next lines. -/
inductive Joint : List Char → Prop
  | line {g b h : List Char} (hg : IsGap g) (hb : LineBreak b) (hh : IsGap h) :
      Joint (g ++ (b ++ h))
  | more {g b j : List Char} (hg : IsGap g) (hb : LineBreak b) (hj : Joint j) :
      Joint (g ++ (b ++ j))

/-- The text begins with a line break. -/
def BreaksLine (s : List Char) : Prop := s.head? = some '\n' ∨ s.head? = some '\r'

/-- The text begins with no blank and no line break. -/
def Solid (s : List Char) : Prop :=
  ¬BreaksLine s ∧ s.head? ≠ some ' ' ∧ s.head? ≠ some '\t'

/-- What may stand in a string of several lines other than a mark, with its meaning. -/
inductive Content : Quote → List Char → List Char → Prop
  | escaped {c : Char} {s : List Char} (h : CharSpelling c s) : Content .double [c] s
  | literal {c : Char} (h : Printable c) (hmark : c ≠ '\'') : Content .single [c] [c]
  | lineBreak {quote : Quote} {b : List Char} (hb : LineBreak b) : Content quote ['\n'] b

/-- A string of several lines behind the marks that open it, up to those that close it.
Up to two marks in a row belong to the string, also right before its end. -/
inductive Block (quote : Quote) : List Char → List Char → Prop
  | close {n : Nat} (hn : n ≤ 2) :
      Block quote (List.replicate n quote.mark) (List.replicate (n + 3) quote.mark)
  | content {n : Nat} {v s w t : List Char} (hn : n ≤ 2) (hs : Content quote v s)
      (ht : Block quote w t) :
      Block quote (List.replicate n quote.mark ++ (v ++ w))
        (List.replicate n quote.mark ++ (s ++ t))
  | join {n : Nat} {j w t : List Char} (hn : n ≤ 2) (hquote : quote = .double) (hj : Joint j)
      (hsolid : Solid t) (ht : Block quote w t) :
      Block quote (List.replicate n quote.mark ++ w)
        (List.replicate n quote.mark ++ '\\' :: (j ++ t))

/-- A text as a string, in any of the four forms. -/
inductive TextSpelling : List Char → List Char → Prop
  | line {v s : List Char} (h : Quoted v s) : TextSpelling v s
  | block {quote : Quote} {v s : List Char} (h : Block quote v s) (hfirst : ¬BreaksLine s) :
      TextSpelling v (quote.mark :: quote.mark :: quote.mark :: s)
  | head {quote : Quote} {b v s : List Char} (hb : LineBreak b) (h : Block quote v s) :
      TextSpelling v (quote.mark :: quote.mark :: quote.mark :: (b ++ s))

/-! ## Keys -/

/-- A character of a key without marks. -/
def BareChar (c : Char) : Prop := c.isAlphanum = true ∨ c = '_' ∨ c = '-'

instance : DecidablePred BareChar := fun c =>
  inferInstanceAs (Decidable (c.isAlphanum = true ∨ c = '_' ∨ c = '-'))

/-- One part of a key. -/
inductive NameSpelling : String → List Char → Prop
  | bare {s : List Char} (hne : s ≠ []) (h : ∀ c ∈ s, BareChar c) :
      NameSpelling (String.ofList s) s
  | quoted {name : String} {s : List Char} (h : Quoted name.toList s) : NameSpelling name s

/-- A key by its parts. -/
inductive PathSpelling : List String → List Char → Prop
  | last {name : String} {s : List Char} (hs : NameSpelling name s) : PathSpelling [name] s
  | dotted {name : String} {path : List String} {s g h t : List Char}
      (hs : NameSpelling name s) (hg : IsGap g) (hh : IsGap h) (ht : PathSpelling path t) :
      PathSpelling (name :: path) (s ++ g ++ '.' :: (h ++ t))

/-! ## Values -/

/-- A value.  What is no string and no array can be no setting, and keeps only its kind. -/
inductive Value
  | text (value : String)
  | array (items : List Value)
  | table
  | scalar

/-- The first character of a number, a truth value or a point in time. -/
def ScalarStart (c : Char) : Prop := c.isAlphanum = true ∨ c = '+' ∨ c = '-'

/-- A character of a number, a truth value or a point in time. -/
def ScalarChar (c : Char) : Prop :=
  ScalarStart c ∨ c = '_' ∨ c = '.' ∨ c = ':' ∨ c = ' '

mutual

/-- A value and one of its texts. -/
inductive ValueText : Value → List Char → Prop
  | text {value : String} {s : List Char} (h : TextSpelling value.toList s) :
      ValueText (.text value) s
  | array {items : List Value} {t : List Char} (h : ArrayText items t) :
      ValueText (.array items) ('[' :: t)
  | table {t : List Char} (h : TableText t) : ValueText .table ('\x7b' :: t)
  | scalar {c : Char} {s : List Char} (hc : ScalarStart c) (hs : ∀ d ∈ s, ScalarChar d) :
      ValueText .scalar (c :: s)

/-- The rest of an array, from behind its opening bracket or a comma on. -/
inductive ArrayText : List Value → List Char → Prop
  | close {f : List Char} (hf : Filler f) : ArrayText [] (f ++ [']'])
  | last {value : Value} {f s g : List Char} (hf : Filler f) (hs : ValueText value s)
      (hg : Filler g) : ArrayText [value] (f ++ s ++ g ++ [']'])
  | cons {value : Value} {values : List Value} {f s g t : List Char} (hf : Filler f)
      (hs : ValueText value s) (hg : Filler g) (ht : ArrayText values t) :
      ArrayText (value :: values) (f ++ s ++ g ++ ',' :: t)

/-- The rest of an inline table, from behind its opening brace on. -/
inductive TableText : List Char → Prop
  | close {g : List Char} (hg : IsGap g) : TableText (g ++ ['\x7d'])
  | members {t : List Char} (h : MembersText t) : TableText t

/-- The members of an inline table, and its end. -/
inductive MembersText : List Char → Prop
  | last {path : List String} {value : Value} {g k h i v j : List Char} (hg : IsGap g)
      (hk : PathSpelling path k) (hh : IsGap h) (hi : IsGap i) (hv : ValueText value v)
      (hj : IsGap j) : MembersText (g ++ k ++ h ++ '=' :: (i ++ v ++ j ++ ['\x7d']))
  | cons {path : List String} {value : Value} {g k h i v j t : List Char} (hg : IsGap g)
      (hk : PathSpelling path k) (hh : IsGap h) (hi : IsGap i) (hv : ValueText value v)
      (hj : IsGap j) (ht : MembersText t) :
      MembersText (g ++ k ++ h ++ '=' :: (i ++ v ++ j ++ ',' :: t))

end

/-! ## Entries -/

/-- A key with its value. -/
structure KeyValue where
  path : List String
  value : Value

/-- An entry as `key = value`. -/
inductive KeyValueText : KeyValue → List Char → Prop
  | intro {entry : KeyValue} {g k h i v : List Char} (hg : IsGap g)
      (hk : PathSpelling entry.path k) (hh : IsGap h) (hi : IsGap i)
      (hv : ValueText entry.value v) : KeyValueText entry (g ++ k ++ h ++ '=' :: (i ++ v))

/-- The lines of a text with its entries in order, a line for each, with blank lines and
comments around them.  The last line need not be ended. -/
inductive LinesText : List KeyValue → List Char → Prop
  | done {g c : List Char} (hg : IsGap g) (hc : Comment c) : LinesText [] (g ++ c)
  | last {entry : KeyValue} {a g c : List Char} (ha : KeyValueText entry a) (hg : IsGap g)
      (hc : Comment c) : LinesText [entry] (a ++ g ++ c)
  | skip {entries : List KeyValue} {g c b t : List Char} (hg : IsGap g) (hc : Comment c)
      (hb : LineBreak b) (ht : LinesText entries t) : LinesText entries (g ++ c ++ b ++ t)
  | give {entry : KeyValue} {entries : List KeyValue} {a g c b t : List Char}
      (ha : KeyValueText entry a) (hg : IsGap g) (hc : Comment c) (hb : LineBreak b)
      (ht : LinesText entries t) : LinesText (entry :: entries) (a ++ g ++ c ++ b ++ t)

/-- A whole text.  A byte order mark at its beginning does not count. -/
def Document (entries : List KeyValue) (text : String) : Prop :=
  LinesText entries (withoutMark text.toList)

end DocCoverage.Overlay
