import CamelLint.Text.Digits

/-! The tokens of a TOML document, and the scanner that finds them: one step a
character. Comments leave no token; strings come with their escapes replaced. -/

namespace CamelLint.Toml

inductive Token where
  | blank (c : Char)
  | newline
  | word (s : List Char)
  | string (s : String) (multiline : Bool)
  | dot
  | equals
  | comma
  | openBracket
  | closeBracket
  | openBrace
  | closeBrace
  deriving Repr

/-- The kind of string that is open. -/
structure Quotation where
  quote : Char
  multiline : Bool
  deriving DecidableEq, Repr

/-- What the scanner is inside of. Characters read so far are in reverse order. -/
inductive LexMode where
  | between
  | afterReturn
  | comment
  | commentReturn
  | word (done : List Char)
  | oneQuote (quote : Char)
  | twoQuotes (quote : Char)
  | firstLine (quote : Char)
  | firstLineReturn (quote : Char)
  | text (q : Quotation) (pending : Nat) (done : List Char)
  | textReturn (q : Quotation) (done : List Char)
  | escape (q : Quotation) (done : List Char)
  | code (q : Quotation) (digits : Nat) (value : Nat) (done : List Char)
  | escapedBlank (done : List Char)
  | escapedReturn (done : List Char)
  | folded (done : List Char)
  | foldedReturn (done : List Char)
  deriving DecidableEq, Repr

/-- The scanner, with its tokens so far in reverse order. -/
inductive Lex where
  | reading (mode : LexMode) (tokens : List Token)
  | broken
  deriving Repr

namespace Lex

open LexMode

def isBlankChar (c : Char) : Bool := c = ' ' || c = '\t'

/-- A character that may stand in a comment or, quotes and escapes apart, in a string. -/
def isTextChar (c : Char) : Bool := c = '\t' || (0x20 ≤ c.toNat && c.toNat ≠ 0x7F)

/-- The token that is one character long. -/
def punctuation? : Char → Option Token
  | ' ' => some (.blank ' ')
  | '\t' => some (.blank '\t')
  | '\n' => some .newline
  | '.' => some .dot
  | '=' => some .equals
  | ',' => some .comma
  | '[' => some .openBracket
  | ']' => some .closeBracket
  | '\x7b' => some .openBrace
  | '\x7d' => some .closeBrace
  | _ => none

def stepBetween (tokens : List Token) (c : Char) : Lex :=
  match punctuation? c with
  | some t => reading between (t :: tokens)
  | none =>
    if c = '\r' then reading afterReturn tokens
    else if c = '#' then reading comment tokens
    else if c = '"' ∨ c = '\'' then reading (oneQuote c) tokens
    else reading (word [c]) tokens

/-- A quote does not end a word, though it begins a string where no word is open. -/
def endsWord (c : Char) : Bool := (punctuation? c).isSome || c = '\r' || c = '#'

def stringToken (q : Quotation) (done : List Char) : Token :=
  .string (String.ofList done.reverse) q.multiline

/-- A character of a string that is no quote. -/
def stepText (q : Quotation) (tokens : List Token) (done : List Char) (c : Char) : Lex :=
  if c = '\\' ∧ q.quote = '"' then reading (escape q done) tokens
  else if isTextChar c then reading (text q 0 (c :: done)) tokens
  else if q.multiline ∧ c = '\n' then reading (text q 0 ('\n' :: done)) tokens
  else if q.multiline ∧ c = '\r' then reading (textReturn q done) tokens
  else broken

/-- Three quotes end a string of several lines, and up to two more before them are its own. -/
def stepString (q : Quotation) (pending : Nat) (tokens : List Token) (done : List Char) (c : Char) :
    Lex :=
  if c = q.quote then
    if !q.multiline then reading between (stringToken q done :: tokens)
    else if pending = 4 then
      reading between (stringToken q (q.quote :: q.quote :: done) :: tokens)
    else reading (text q (pending + 1) done) tokens
  else if 3 ≤ pending then
    stepBetween (stringToken q (List.replicate (pending - 3) q.quote ++ done) :: tokens) c
  else stepText q tokens (List.replicate pending q.quote ++ done) c

def escapedChar? : Char → Option Char
  | 'b' => some '\x08'
  | 't' => some '\t'
  | 'n' => some '\n'
  | 'f' => some '\x0c'
  | 'r' => some '\r'
  | 'e' => some '\x1b'
  | '"' => some '"'
  | '\\' => some '\\'
  | _ => none

/-- How many digits follow the letter of an escape by number. -/
def codeDigits? : Char → Option Nat
  | 'x' => some 2
  | 'u' => some 4
  | 'U' => some 8
  | _ => none

def stepEscape (q : Quotation) (tokens : List Token) (done : List Char) (c : Char) : Lex :=
  match escapedChar? c, codeDigits? c with
  | some d, _ => reading (text q 0 (d :: done)) tokens
  | none, some n => reading (code q n 0 done) tokens
  | none, none =>
    if !q.multiline then broken
    else if isBlankChar c then reading (escapedBlank done) tokens
    else if c = '\n' then reading (folded done) tokens
    else if c = '\r' then reading (escapedReturn done) tokens
    else broken

def stepCode (q : Quotation) (digits value : Nat) (tokens : List Token) (done : List Char)
    (c : Char) : Lex :=
  match Text.digitValue? c with
  | none => broken
  | some d =>
    let value := 16 * value + d
    if 1 < digits then reading (code q (digits - 1) value done) tokens
    else if h : value.isValidChar then
      reading (text q 0 (Char.ofNatAux value h :: done)) tokens
    else broken

def basicLines : Quotation := ⟨'"', true⟩

def stepMode (mode : LexMode) (tokens : List Token) (c : Char) : Lex :=
  match mode with
  | between => stepBetween tokens c
  | afterReturn => if c = '\n' then reading between (.newline :: tokens) else broken
  | comment =>
    if c = '\n' then reading between (.newline :: tokens)
    else if c = '\r' then reading commentReturn tokens
    else if isTextChar c then reading comment tokens
    else broken
  | commentReturn => if c = '\n' then reading between (.newline :: tokens) else broken
  | word done =>
    if endsWord c then stepBetween (.word done.reverse :: tokens) c
    else reading (word (c :: done)) tokens
  | oneQuote quote =>
    if c = quote then reading (twoQuotes quote) tokens else stepText ⟨quote, false⟩ tokens [] c
  | twoQuotes quote =>
    if c = quote then reading (firstLine quote) tokens
    else stepBetween (.string "" false :: tokens) c
  | firstLine quote =>
    if c = '\n' then reading (text ⟨quote, true⟩ 0 []) tokens
    else if c = '\r' then reading (firstLineReturn quote) tokens
    else stepString ⟨quote, true⟩ 0 tokens [] c
  | firstLineReturn quote =>
    if c = '\n' then reading (text ⟨quote, true⟩ 0 []) tokens else broken
  | text q pending done => stepString q pending tokens done c
  | textReturn q done =>
    if c = '\n' then reading (text q 0 ('\n' :: '\r' :: done)) tokens else broken
  | escape q done => stepEscape q tokens done c
  | code q digits value done => stepCode q digits value tokens done c
  | escapedBlank done =>
    if isBlankChar c then reading (escapedBlank done) tokens
    else if c = '\n' then reading (folded done) tokens
    else if c = '\r' then reading (escapedReturn done) tokens
    else broken
  | escapedReturn done => if c = '\n' then reading (folded done) tokens else broken
  | folded done =>
    if isBlankChar c ∨ c = '\n' then reading (folded done) tokens
    else if c = '\r' then reading (foldedReturn done) tokens
    else stepString basicLines 0 tokens done c
  | foldedReturn done => if c = '\n' then reading (folded done) tokens else broken

def step : Lex → Char → Lex
  | reading mode tokens, c => stepMode mode tokens c
  | broken, _ => broken

def run (s : Lex) (cs : List Char) : Lex := cs.foldl step s

@[simp] theorem run_nil (s : Lex) : s.run [] = s := rfl

@[simp] theorem run_cons (s : Lex) (c : Char) (cs : List Char) :
    s.run (c :: cs) = (s.step c).run cs := rfl

theorem run_append (s : Lex) (cs ds : List Char) : s.run (cs ++ ds) = (s.run cs).run ds :=
  List.foldl_append

/-- The tokens at the end of the document, if it does not end inside one that is open. -/
def tokens? : Lex → Option (List Token)
  | reading between tokens | reading comment tokens => some tokens.reverse
  | reading (word done) tokens => some (.word done.reverse :: tokens).reverse
  | reading (twoQuotes _) tokens => some (.string "" false :: tokens).reverse
  | reading (text q pending done) tokens =>
    if q.multiline ∧ 3 ≤ pending then
      some (stringToken q (List.replicate (pending - 3) q.quote ++ done) :: tokens).reverse
    else none
  | _ => none

end Lex

/-- The tokens of a text. A byte order mark at its start is dropped. -/
def tokens? (source : String) : Option (List Token) :=
  let cs := match source.toList with
    | '\uFEFF' :: r => r
    | cs => cs
  ((Lex.reading .between []).run cs).tokens?

end CamelLint.Toml
