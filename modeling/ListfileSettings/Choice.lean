/-!
# Choices

The choices that settings, files and commands are made of. Each value of a choice has a name;
`ofName?` finds the value of a name.
-/
namespace ListfileSettings

/-- A finite choice whose values have names, all different. -/
class Named (α : Type) where
  all : List α
  name : α → String
  mem_all : ∀ a, a ∈ all
  name_injective : ∀ a b, name a = name b → a = b

namespace Named

def ofName? [Named α] (s : String) : Option α := (all (α := α)).find? fun a => name a == s

def names (α : Type) [Named α] : List String := (all (α := α)).map name

theorem name_of_ofName? [Named α] {s : String} {a : α} (h : ofName? s = some a) : name a = s := by
  simpa using List.find?_some h

theorem ofName?_name [Named α] (a : α) : ofName? (name a) = some a := by
  cases h : ofName? (α := α) (name a) with
  | none =>
    have := List.find?_eq_none.mp h a (mem_all a)
    simp at this
  | some b => rw [name_injective b a (name_of_ofName? h)]

theorem ofName?_eq_some_iff [Named α] {s : String} {a : α} : ofName? s = some a ↔ name a = s :=
  ⟨name_of_ofName?, fun h => h ▸ ofName?_name a⟩

end Named

/-- Letter case of keywords or command names. -/
inductive CaseStyle where
  | upper
  | lower
  | unchanged
  deriving DecidableEq, Repr

instance : Named CaseStyle where
  all := [.upper, .lower, .unchanged]
  name
    | .upper => "upper"
    | .lower => "lower"
    | .unchanged => "unchanged"
  mem_all a := by cases a <;> simp
  name_injective a b := by cases a <;> cases b <;> simp

/-- Line ending of formatted output; `auto` is that of the formatted file. -/
inductive LineEnding where
  | unix
  | windows
  | auto
  deriving DecidableEq, Repr

instance : Named LineEnding where
  all := [.unix, .windows, .auto]
  name
    | .unix => "unix"
    | .windows => "windows"
    | .auto => "auto"
  mem_all a := by cases a <;> simp
  name_injective a b := by cases a <;> cases b <;> simp

/-- How settings are written down: as lines of assignments or as a JSON object. -/
inductive Encoding where
  | assignments
  | json
  deriving DecidableEq, Repr

instance : Named Encoding where
  all := [.assignments, .json]
  name
    | .assignments => "kv"
    | .json => "json"
  mem_all a := by cases a <;> simp
  name_injective a b := by cases a <;> cases b <;> simp

/-- What to do about a key that is not known: fail, or leave it out and warn. -/
inductive UnknownKeys where
  | reject
  | warn
  deriving DecidableEq, Repr

instance : Named UnknownKeys where
  all := [.reject, .warn]
  name
    | .reject => "reject"
    | .warn => "warn"
  mem_all a := by cases a <;> simp
  name_injective a b := by cases a <;> cases b <;> simp

end ListfileSettings
