import ListfileSettings.Key

/-!
# Settings

The record of formatter settings. It is seen through its keys: `get` and `set` of one key, whose
values have the type that the key's kind names.
-/
namespace ListfileSettings

/-- The type of the values of a kind. -/
@[reducible] def Kind.Value : Kind → Type
  | .positive | .count => UInt32
  | .flag => Bool
  | .caseStyle => CaseStyle
  | .lineEnding => LineEnding
  | .names => List String

structure Settings where
  lineWidth : UInt32 := 80
  tabSize : UInt32 := 2
  useTabchars : Bool := false
  maxSubgroupsHwrap : UInt32 := 2
  separateCtrlNameWithSpace : Bool := false
  separateFnNameWithSpace : Bool := false
  keywordCase : CaseStyle := .unchanged
  commandCase : CaseStyle := .unchanged
  alwaysWrap : List String := []
  enableSort : Bool := true
  autosort : Bool := false
  dangleParens : Bool := false
  maxPargsHwrap : UInt32 := 6
  minPrefixChars : UInt32 := 4
  maxPrefixChars : UInt32 := 10
  maxLinesHwrap : UInt32 := 2
  lineEnding : LineEnding := .unix
  deriving DecidableEq, Repr

namespace Settings

def get (r : Settings) : (k : Key) → k.kind.Value
  | .lineWidth => r.lineWidth
  | .tabSize => r.tabSize
  | .useTabchars => r.useTabchars
  | .maxSubgroupsHwrap => r.maxSubgroupsHwrap
  | .separateCtrlNameWithSpace => r.separateCtrlNameWithSpace
  | .separateFnNameWithSpace => r.separateFnNameWithSpace
  | .keywordCase => r.keywordCase
  | .commandCase => r.commandCase
  | .alwaysWrap => r.alwaysWrap
  | .enableSort => r.enableSort
  | .autosort => r.autosort
  | .dangleParens => r.dangleParens
  | .maxPargsHwrap => r.maxPargsHwrap
  | .minPrefixChars => r.minPrefixChars
  | .maxPrefixChars => r.maxPrefixChars
  | .maxLinesHwrap => r.maxLinesHwrap
  | .lineEnding => r.lineEnding

def set (r : Settings) : (k : Key) → k.kind.Value → Settings
  | .lineWidth, v => { r with lineWidth := v }
  | .tabSize, v => { r with tabSize := v }
  | .useTabchars, v => { r with useTabchars := v }
  | .maxSubgroupsHwrap, v => { r with maxSubgroupsHwrap := v }
  | .separateCtrlNameWithSpace, v => { r with separateCtrlNameWithSpace := v }
  | .separateFnNameWithSpace, v => { r with separateFnNameWithSpace := v }
  | .keywordCase, v => { r with keywordCase := v }
  | .commandCase, v => { r with commandCase := v }
  | .alwaysWrap, v => { r with alwaysWrap := v }
  | .enableSort, v => { r with enableSort := v }
  | .autosort, v => { r with autosort := v }
  | .dangleParens, v => { r with dangleParens := v }
  | .maxPargsHwrap, v => { r with maxPargsHwrap := v }
  | .minPrefixChars, v => { r with minPrefixChars := v }
  | .maxPrefixChars, v => { r with maxPrefixChars := v }
  | .maxLinesHwrap, v => { r with maxLinesHwrap := v }
  | .lineEnding, v => { r with lineEnding := v }

@[simp] theorem get_set (r : Settings) (k : Key) (v : k.kind.Value) : (r.set k v).get k = v := by
  cases k <;> rfl

theorem get_set_of_ne (r : Settings) {k k' : Key} (v : k.kind.Value) (h : k' ≠ k) :
    (r.set k v).get k' = r.get k' := by
  cases k <;> cases k' <;> simp_all [get, set]

theorem set_set (r : Settings) (k : Key) (v v' : k.kind.Value) : (r.set k v).set k v' = r.set k v' := by
  cases k <;> rfl

theorem ext_get {r r' : Settings} (h : ∀ k, r.get k = r'.get k) : r = r' := by
  have h₁ := h .lineWidth
  have h₂ := h .tabSize
  have h₃ := h .useTabchars
  have h₄ := h .maxSubgroupsHwrap
  have h₅ := h .separateCtrlNameWithSpace
  have h₆ := h .separateFnNameWithSpace
  have h₇ := h .keywordCase
  have h₈ := h .commandCase
  have h₉ := h .alwaysWrap
  have h₁₀ := h .enableSort
  have h₁₁ := h .autosort
  have h₁₂ := h .dangleParens
  have h₁₃ := h .maxPargsHwrap
  have h₁₄ := h .minPrefixChars
  have h₁₅ := h .maxPrefixChars
  have h₁₆ := h .maxLinesHwrap
  have h₁₇ := h .lineEnding
  cases r
  cases r'
  simp_all [get]

end Settings

end ListfileSettings
