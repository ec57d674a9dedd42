import CamelLint.Xml.ModuleTree

/-! Documents as they are written. Relations say which texts write a value, the
attributes of a tag, the content of an element and a whole document, with all the
choices that a writer has: references, quotes, blanks, comments, processing
instructions and the two forms of an element without content. What a document writes
is a tree of elements; a second group of relations says which module tree it
describes. -/

namespace CamelLint.Xml

/-! ### Values -/

/-- A digit and its value, in either case. -/
def IsDigitOf (base : Nat) (c : Char) (v : Nat) : Prop :=
  v < base ∧ ("0123456789abcdef".toList[v]? = some c ∨ "0123456789ABCDEF".toList[v]? = some c)

instance (base : Nat) (c : Char) (v : Nat) : Decidable (IsDigitOf base c v) :=
  inferInstanceAs (Decidable (_ ∧ _))

/-- The numerals of a number: at least one digit, leading zeros allowed. -/
inductive Numeral (base : Nat) : List Char → Nat → Prop where
  | digit {c : Char} {v : Nat} (h : IsDigitOf base c v) : Numeral base [c] v
  | snoc {ds : List Char} {n : Nat} {c : Char} {v : Nat} (hs : Numeral base ds n)
      (h : IsDigitOf base c v) : Numeral base (ds ++ [c]) (base * n + v)

/-- The predefined entities. -/
def entities : List (String × Char) :=
  [("lt", '<'), ("gt", '>'), ("amp", '&'), ("apos", '\''), ("quot", '"')]

/-- What may stand between `&` and `;` to refer to a character. -/
inductive Refers : List Char → Char → Prop where
  | entity {name : String} {c : Char} (h : (name, c) ∈ entities) : Refers name.toList c
  | decimal {ds : List Char} {c : Char} (h : Numeral 10 ds c.toNat) (h0 : c ≠ '\x00') :
      Refers ('#' :: ds) c
  | hexadecimal {ds : List Char} {c : Char} (h : Numeral 16 ds c.toNat) (h0 : c ≠ '\x00') :
      Refers ('#' :: 'x' :: ds) c

/-- The ways of writing a text as a value: each character by itself, an ampersand apart, or
by a reference. -/
inductive Spells : List Char → List Char → Prop where
  | nil : Spells [] []
  | literal {c : Char} {s raw : List Char} (h : c ≠ '&') (hs : Spells s raw) :
      Spells (c :: s) (c :: raw)
  | reference {name : List Char} {c : Char} {s raw : List Char} (h : Refers name c)
      (hs : Spells s raw) : Spells (c :: s) ('&' :: (name ++ ';' :: raw))

/-! ### Tags -/

/-- Names are made of anything but blanks and the characters of markup; an at sign belongs to
none, since it marks the fields of a module. -/
def isNameChar (c : Char) : Bool := !isSpace c && !"<>/=&!?@\"'".toList.contains c

def IsName (name : List Char) : Prop := name ≠ [] ∧ ∀ c ∈ name, isNameChar c = true

instance (name : List Char) : Decidable (IsName name) :=
  have := List.decidableBAll (fun c => isNameChar c = true) name
  inferInstanceAs (Decidable (_ ∧ _))

/-- An ordinary name, without a prefix. -/
def IsPlainName (name : List Char) : Prop := IsName name ∧ ':' ∉ name

instance (name : List Char) : Decidable (IsPlainName name) := inferInstanceAs (Decidable (_ ∧ _))

def Blanks (s : List Char) : Prop := ∀ c ∈ s, isSpace c = true

instance (s : List Char) : Decidable (Blanks s) := List.decidableBAll (fun c => isSpace c = true) s

/-- The text that writes attributes, from the end of the name to the end of the tag. A value
may hold anything but the quote around it. -/
inductive AttributesText : List Attribute → List Char → Prop where
  | nil {blanks : List Char} (h : Blanks blanks) : AttributesText [] blanks
  | cons {gap key before after raw text : List Char} {quote : Char} {as : List Attribute}
      (hg : Blanks gap) (hn : gap ≠ []) (hk : IsName key) (hb : Blanks before)
      (ha : Blanks after) (hq : isQuote quote = true) (hr : quote ∉ raw)
      (hs : AttributesText as text) :
      AttributesText (⟨key, raw⟩ :: as)
        (gap ++ key ++ before ++ '=' :: (after ++ quote :: (raw ++ quote :: text)))

/-- A tag with distinct attributes that satisfy a further condition. -/
structure IsTag (allowed : List Attribute → Prop) (name : List Char) (as : List Attribute)
    (text : List Char) : Prop where
  isName : IsName name
  attributes : AttributesText as text
  distinct : (as.map (·.key)).Nodup
  isAllowed : allowed as

/-- The reserved prefixes and names of namespaces are left alone. -/
def KeepsReserved (as : List Attribute) : Prop :=
  ∀ a ∈ as, ∀ p, a.key = "xmlns:".toList ++ p → isSoundBinding p a.value = true

def openTag (name attributes : List Char) : List Char := '<' :: (name ++ attributes ++ ['>'])

def emptyTag (name attributes : List Char) : List Char := '<' :: (name ++ attributes ++ ['/', '>'])

def closeTag (name blanks : List Char) : List Char := '<' :: '/' :: (name ++ blanks ++ ['>'])

/-- An attribute as it is mostly written, after one blank. -/
def setting (key : String) (quote : Char) (raw : List Char) : List Char :=
  ' ' :: (key.toList ++ '=' :: quote :: (raw ++ [quote]))

/-! ### Content -/

/-- An element: its name, its attributes with their values as written, and the elements in it. -/
inductive Element where
  | mk (name : List Char) (attributes : List Attribute) (children : List Element)

namespace Element

def name : Element → List Char
  | mk name _ _ => name

end Element

/-- A comment or a processing instruction. Each ends where its end mark first comes up. -/
inductive Aside : List Char → Prop where
  | comment {body : List Char} (h : ¬ "-->".toList <:+: body) :
      Aside ("<!--".toList ++ body ++ "-->".toList)
  | instruction {body : List Char} (hn : body ≠ []) (hf : body.head? ≠ some '>')
      (h : ¬ "?>".toList <:+: body) : Aside ("<?".toList ++ body ++ "?>".toList)

/-- The well-formed content that has the given elements, in order. All attributes in it
satisfy the condition. -/
inductive Content (allowed : List Attribute → Prop) : List Element → List Char → Prop where
  | nil : Content allowed [] []
  | char {c : Char} {es : List Element} {cs : List Char} (hl : c ≠ '<') (ha : c ≠ '&')
      (h : Content allowed es cs) : Content allowed es (c :: cs)
  | reference {name : List Char} {c : Char} {es : List Element} {cs : List Char}
      (hr : Refers name c) (h : Content allowed es cs) :
      Content allowed es ('&' :: (name ++ ';' :: cs))
  | cdata {body : List Char} {es : List Element} {cs : List Char}
      (hb : ¬ "]]>".toList <:+: body) (h : Content allowed es cs) :
      Content allowed es ("<![CDATA[".toList ++ body ++ "]]>".toList ++ cs)
  | aside {piece : List Char} {es : List Element} {cs : List Char} (hp : Aside piece)
      (h : Content allowed es cs) : Content allowed es (piece ++ cs)
  | empty {name text : List Char} {as : List Attribute} {es : List Element} {cs : List Char}
      (ht : IsTag allowed name as text) (h : Content allowed es cs) :
      Content allowed (.mk name as [] :: es) (emptyTag name text ++ cs)
  | pair {name text blanks inside : List Char} {as : List Attribute} {inner es : List Element}
      {cs : List Char} (ht : IsTag allowed name as text) (hi : Content allowed inner inside)
      (hb : Blanks blanks) (h : Content allowed es cs) :
      Content allowed (.mk name as inner :: es)
        (openTag name text ++ inside ++ closeTag name blanks ++ cs)

/-- The text of one element. -/
inductive ElementText (allowed : List Attribute → Prop) : Element → List Char → Prop where
  | empty {name text : List Char} {as : List Attribute} (ht : IsTag allowed name as text) :
      ElementText allowed (.mk name as []) (emptyTag name text)
  | pair {name text blanks inside : List Char} {as : List Attribute} {inner : List Element}
      (ht : IsTag allowed name as text) (hi : Content allowed inner inside)
      (hb : Blanks blanks) :
      ElementText allowed (.mk name as inner)
        (openTag name text ++ inside ++ closeTag name blanks)

/-- What may stand before the root. -/
inductive Prolog : List Char → Prop where
  | nil : Prolog []
  | blank {c : Char} {cs : List Char} (hc : isSpace c = true) (h : Prolog cs) : Prolog (c :: cs)
  | aside {piece cs : List Char} (hp : Aside piece) (h : Prolog cs) : Prolog (piece ++ cs)

/-- A document with the given root; what follows the root is open. -/
def DocumentText (allowed : List Attribute → Prop) (root : Element) (doc : List Char) : Prop :=
  ∃ before text after, doc = before ++ text ++ after ∧ Prolog before ∧
    ElementText allowed root text

/-! ### Modules -/

/-- The attribute is there, and its value spells the text. -/
def Says (as : List Attribute) (key value : String) : Prop :=
  ∃ raw, ⟨key.toList, raw⟩ ∈ as ∧ Spells value.toList raw

def PlainAttributes (as : List Attribute) : Prop := ∀ a ∈ as, IsPlainName a.key

instance (as : List Attribute) : Decidable (PlainAttributes as) :=
  List.decidableBAll (fun a : Attribute => IsPlainName a.key) as

/-- The attributes of a property; without a value, the value is empty. -/
structure DescribesProperty (as : List Attribute) (name value : String) : Prop where
  plain : PlainAttributes as
  saysName : Says as "name" name
  saysValue : Says as "value" value ∨ (value = "" ∧ ∀ a ∈ as, a.key ≠ "value".toList)

structure DescribesModule (as : List Attribute) (name : String) : Prop where
  plain : PlainAttributes as
  saysName : Says as "name" name

/-- The children of a module describe its properties and the modules in it, each in order;
others have ordinary names, and anything in them. -/
inductive Describes : List Element → List (String × String) → List ModuleTree → Prop where
  | nil : Describes [] [] []
  | other {name : List Char} {as : List Attribute} {inner es : List Element}
      {ps : List (String × String)} {ts : List ModuleTree} (hn : IsPlainName name)
      (hm : name ≠ "module".toList) (hp : name ≠ "property".toList) (h : Describes es ps ts) :
      Describes (.mk name as inner :: es) ps ts
  | property {as : List Attribute} {inner es : List Element} {name value : String}
      {ps : List (String × String)} {ts : List ModuleTree}
      (ha : DescribesProperty as name value) (hi : ∀ e ∈ inner, IsPlainName e.name)
      (h : Describes es ps ts) :
      Describes (.mk "property".toList as inner :: es) ((name, value) :: ps) ts
  | module {as : List Attribute} {inner es : List Element} {name : String}
      {qs ps : List (String × String)} {us ts : List ModuleTree} (ha : DescribesModule as name)
      (hi : Describes inner qs us) (h : Describes es ps ts) :
      Describes (.mk "module".toList as inner :: es) ps (.node name qs us :: ts)

/-- The root describes a module tree, whatever its name is. -/
inductive DescribesRoot : Element → ModuleTree → Prop where
  | mk {name : List Char} {as : List Attribute} {inner : List Element} {n : String}
      {ps : List (String × String)} {ts : List ModuleTree} (ha : DescribesModule as n)
      (hi : Describes inner ps ts) : DescribesRoot (.mk name as inner) (.node n ps ts)

/-- The text is a document whose root describes the module tree. -/
def Presents (allowed : List Attribute → Prop) (source : String) (t : ModuleTree) : Prop :=
  ∃ e, DocumentText allowed e source.toList ∧ DescribesRoot e t

/-- The text is such a document and ends with its root. -/
def Renders (allowed : List Attribute → Prop) (source : String) (t : ModuleTree) : Prop :=
  ∃ e before text, source.toList = before ++ text ∧ Prolog before ∧ ElementText allowed e text ∧
    DescribesRoot e t

theorem Renders.presents {allowed : List Attribute → Prop} {source : String} {t : ModuleTree}
    (h : Renders allowed source t) : Presents allowed source t := by
  obtain ⟨e, before, text, hs, hp, he, hd⟩ := h
  exact ⟨e, ⟨before, text, [], by rw [hs, List.append_nil], hp, he⟩, hd⟩

end CamelLint.Xml
