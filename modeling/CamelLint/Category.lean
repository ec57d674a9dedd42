/-! The concern that a rule speaks to. -/

namespace CamelLint

inductive Category where
  | correctness
  | security
  | performance
  | usability
  | accessibility
  | internationalization
  deriving DecidableEq, Repr

namespace Category

def all : List Category :=
  [correctness, security, performance, usability, accessibility, internationalization]

/-- The word for a category, shown to readers and used in data alike. -/
def label : Category → String
  | correctness => "Correctness"
  | security => "Security"
  | performance => "Performance"
  | usability => "Usability"
  | accessibility => "Accessibility"
  | internationalization => "Internationalization"

theorem label_injective {a b : Category} (h : a.label = b.label) : a = b := by
  cases a <;> cases b <;> simp_all [label]

def ofLabel? (word : String) : Option Category := all.find? (·.label = word)

end Category

end CamelLint
