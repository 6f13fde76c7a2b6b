import ListfileSettings.Proofs.Assignment.Bindings
import ListfileSettings.Proofs.Draft.Policies
import ListfileSettings.Proofs.Json.Printing
import ListfileSettings.Proofs.Settings.Integers

/-!
# Integers from each source

An integer for a key comes in a line of a settings text, in a member of a JSON object or in a
variable of the environment. Whatever its size is and however it is spelled, the three are loaded as
the same record, or none of them is.
-/
namespace ListfileSettings

open Decimal (Wide)

variable {n : Int} {name : String}

/-! ### Lines -/

namespace Assignment

open Grammar

/-- A settings text of one line, which assigns an integer. The line break can be left out. -/
inductive Grammar.IntegerText : List Char → String → Int → Prop
  | mk {b₁ k b₂ b₃ t u e : List Char} {n : Int} (h₁ : Blanks b₁) (hk : Identifier k) (h₂ : Blanks b₂)
      (h₃ : Blanks b₃) (ht : Integer t n) (hu : Trailer u) (he : e = [] ∨ e = ['\n']) :
      IntegerText (b₁ ++ (k ++ (b₂ ++ '=' :: (b₃ ++ (t ++ u)))) ++ e) (String.ofList k) n

theorem read_of_integerText {text : String} (h : IntegerText text.toList name n) :
    read text = .ok [⟨name, .integer (Wide.clamp n), 1⟩] := by
  generalize hs : text.toList = cs at h
  cases h with
  | mk h₁ hk h₂ h₃ ht hu he =>
    have hl := Line.assignment (n := 1) h₁ hk h₂ h₃ (.integer ht) hu
    rw [← String.ofList_toList (s := text), hs]
    apply read_of_lines
    rcases he with rfl | rfl
    · rw [List.append_nil]
      exact .last hl
    · exact (wholeLines_of_line hl).lines

end Assignment

namespace Draft

open Settings
open Assignment.Grammar (IntegerText Blanks Digits blanks_space digits_iff identifier_ofList)
open Json.Grammar (IntegerObject Space quoted_escaped space_nil)
open Override (Spells)

variable {d : Draft} {w : World} {policy : UnknownKeys} {k : Key} {r : Settings} {f : Failure}
  {is : List Item} {text stem rest value : String}

/-! ### Failures without unknown names -/

/-- Where all names are those of keys, only a value can be at fault. -/
theorem kind_of_useAll (hu : ∀ i ∈ is, i.unknown? = none) (h : (d.useAll is).result = .error f) :
    f.kind = .invalidValue := by
  obtain ⟨d', i, hi, he⟩ := exists_use_of_error h
  rw [kind_of_use he, hu i hi]
  rfl

theorem kind_of_takeAll (hu : ∀ i ∈ is, i.unknown? = none)
    (h : (takeAll policy r is).result = .error f) : f.kind = .invalidValue := by
  have hd : (useAll { settings := r, policy } is).result = .error f := by
    rw [useAll_eq, Logged.map_eq, h]
    rfl
  exact kind_of_useAll hu hd

theorem kind_of_load (hu : ∀ i ∈ Item.ofEnvironment w.texts d.stem, i.unknown? = none)
    (h : (d.load w).result = .error (.failure f)) : f.kind = .invalidValue := by
  obtain ⟨-, h⟩ := result_load_failure_iff.mp h
  rw [loadFrom, Logged.result_bind_eq_error_iff, overrideFrom_eq] at h
  rcases h with h | ⟨d', -, h⟩
  · exact kind_of_useAll hu h
  · exact kind_of_finish h

theorem exists_failure_of_stem {encoding : Encoding} {e : Halt Failure} (hs : d.stem = none)
    (h : (d.loadText w text encoding policy).result = .error e) : ∃ f, e = .failure f := by
  cases e with
  | crash =>
    rw [loadText_of_findsText (.inl hs)] at h
    exact absurd h Logged.result_lift_ne_crash
  | failure f => exact ⟨f, rfl⟩

/-- Without a stem, a text whose names are all those of keys fails, if it does, for a value. -/
theorem exists_failure_of_loadText {encoding : Encoding} {c : Contents} {e : Halt Failure}
    (hs : d.stem = none) (hc : Contents.read text encoding = .ok c)
    (hu : ∀ i ∈ c.items, i.unknown? = none)
    (h : (d.loadText w text encoding policy).result = .error e) :
    ∃ f, e = .failure f ∧ f.kind = .invalidValue := by
  obtain ⟨f, rfl⟩ := exists_failure_of_stem hs h
  refine ⟨f, rfl, ?_⟩
  rw [loadText_of_findsText (.inl hs), Logged.result_lift_error_iff, loadTextFrom, hc, hs] at h
  change (takeAll policy d.settings (c.items ++ []) >>= _).result = _ at h
  rw [List.append_nil, Logged.result_bind_eq_error_iff] at h
  rcases h with h | ⟨r, -, h⟩
  · exact kind_of_takeAll hu h
  · exact kind_of_finish h

/-! ### The three sources -/

theorem result_loadText_line_iff (hk : k.kind.IsInteger)
    (h : IntegerText text.toList k.text n) :
    (({} : Draft).loadText w text .assignments policy).result = .ok r ↔ HasInteger k n r := by
  have hs : Given.settings? text .assignments =
      some [(k.text, .literal (.integer (Wide.clamp n)))] := by
    rw [Given.settings?, Assignment.read_of_integerText h]
    rfl
  rw [loadText, result_load_addText_iff rfl, hs]
  simp only [Option.some.injEq, exists_eq_left']
  refine steps_integer_iff fun x => ?_
  rw [Given.Denotes, and_iff_left_of_imp Kind.admits_of_takes, Kind.takes_clamp_iff hk]

theorem result_loadText_object_iff (hk : k.kind.IsInteger)
    (h : IntegerObject text.toList k.text n) :
    (({} : Draft).loadText w text .json policy).result = .ok r ↔ HasInteger k n r := by
  have hs : ∀ es, Given.settings? text .json = some es ↔
      ∃ v, Json.ReadsDecimal n v ∧ es = [(k.text, .json v.canonical)] := by
    intro es
    simp only [Given.settings?_json_eq_some_iff, Json.readRaw_integerObject_iff h]
    constructor
    · intro h
      obtain ⟨_, ⟨v, hv, he⟩, rfl⟩ := h
      cases he
      exact ⟨v, hv, rfl⟩
    · intro h
      obtain ⟨v, hv, rfl⟩ := h
      exact ⟨_, ⟨v, hv, rfl⟩, rfl⟩
  have hg : ∀ {v}, Json.ReadsDecimal n v →
      (Steps policy {} [(k.text, .json v.canonical)] r ∧ r.validate = .ok () ↔ HasInteger k n r) :=
    fun hv => steps_integer_iff fun x => Kind.takesJson_decimal_iff hk hv
  rw [loadText, result_load_addText_iff rfl]
  simp only [hs]
  constructor
  · intro h
    obtain ⟨_, ⟨v, hv, rfl⟩, h⟩ := h
    exact (hg hv).mp h
  · intro h
    obtain ⟨x, hx, -⟩ := id h
    -- What a key takes fits 64 bits, so there is a value that the decimal is read as.
    have hv := Json.readsDecimal_integer_iff.mpr ⟨Kind.fits_of_takesInteger hx, rfl⟩
    exact ⟨_, ⟨_, hv, rfl⟩, (hg hv).mpr h⟩

theorem under_single : Override.under stem [(stem ++ "__" ++ rest, value)] =
    [(stem ++ "__" ++ rest, value)] :=
  Override.under_of_pairwise (List.forall_mem_singleton.mpr (Override.isUnder_iff.mpr ⟨rest, rfl⟩))
    (List.pairwise_singleton _ _)

theorem result_load_variable_iff (hk : k.kind.IsInteger) (hs : d.stem = some stem)
    (hd : d.settings = {}) (ht : w.IsText) (hw : w.texts = [(stem ++ "__" ++ rest, value)])
    (hr : Text.lower rest = k.text) (h : Spells value.toList n) :
    (d.load w).result = .ok r ↔ HasInteger k n r := by
  have ho : overrides w.texts d.stem = [(k.text, .text value)] := by
    rw [hs, overrides, Override.settings, hw, under_single, List.map_singleton,
      Override.keyText_append, hr]
  rw [result_load_iff, and_iff_right (.inr ht), ho, hd]
  refine steps_integer_iff fun x => ?_
  rw [Kind.denotes_text_iff hk h, and_iff_left_of_imp Kind.admits_of_takesInteger]

/-! ### Agreement -/

theorem exists_failure_of_line {e : Halt Failure} (h : IntegerText text.toList k.text n)
    (he : (({} : Draft).loadText w text .assignments policy).result = .error e) :
    ∃ f, e = .failure f ∧ f.kind = .invalidValue := by
  have hc : Contents.read text .assignments =
      .ok (.assignments [⟨k.text, .integer (Wide.clamp n), 1⟩]) := by
    rw [Contents.read, Assignment.read_of_integerText h]
  refine exists_failure_of_loadText rfl hc (fun i hi => ?_) he
  obtain rfl := List.mem_singleton.mp hi
  exact Item.unknown?_of_key rfl

theorem exists_failure_of_variable {e : Halt Failure} (hs : d.stem = some stem) (ht : w.IsText)
    (hw : w.texts = [(stem ++ "__" ++ rest, value)]) (hr : Text.lower rest = k.text)
    (he : (d.load w).result = .error e) : ∃ f, e = .failure f ∧ f.kind = .invalidValue := by
  cases e with
  | crash => exact absurd (.inr ht) (result_load_crash_iff.mp he)
  | failure f =>
    refine ⟨f, rfl, kind_of_load (fun i hi => ?_) he⟩
    rw [hs, hw, Item.ofEnvironment, under_single] at hi
    obtain rfl := List.mem_singleton.mp hi
    apply Item.unknown?_of_key
    rw [Item.key?, Override.key?_append, hr]

/-- An integer of any size gives the same record from each source: the defaults with the integer, if
the key takes it and the prefix bounds are in order. Otherwise each source fails, a line and a
variable for an invalid value. -/
theorem load_integers {k : Key} (hk : k.kind.IsInteger) {n : Int} (policy : UnknownKeys) (w : World)
    {line object stem rest value : String} (hl : IntegerText line.toList k.text n)
    (ho : IntegerObject object.toList k.text n) (hr : Text.lower rest = k.text)
    (hv : Spells value.toList n) :
    let fromLine := (({} : Draft).loadText w line .assignments policy).result
    let fromObject := (({} : Draft).loadText w object .json policy).result
    let fromVariable := (((({} : Draft).withPolicy policy).withStem stem).load
      { w with environment := [.ofTexts (Text.upper stem ++ "__" ++ rest) value] }).result
    (∀ r, HasInteger k n r → fromLine = .ok r ∧ fromObject = .ok r ∧ fromVariable = .ok r) ∧
    ((∀ r, ¬ HasInteger k n r) →
      (∃ f, fromLine = .error (.failure f) ∧ f.kind = .invalidValue) ∧
        (∃ f, fromObject = .error (.failure f)) ∧
        ∃ f, fromVariable = .error (.failure f) ∧ f.kind = .invalidValue) := by
  intro fromLine fromObject fromVariable
  have h₁ : ∀ r, fromLine = .ok r ↔ HasInteger k n r := fun r => result_loadText_line_iff hk hl
  have h₂ : ∀ r, fromObject = .ok r ↔ HasInteger k n r := fun r => result_loadText_object_iff hk ho
  have ht := World.isText_of_texts (w := { w with environment := [.ofTexts _ value] })
    [(Text.upper stem ++ "__" ++ rest, value)] rfl
  have hw := World.texts_of_texts (w := { w with environment := [.ofTexts _ value] })
    [(Text.upper stem ++ "__" ++ rest, value)] rfl
  have h₃ : ∀ r, fromVariable = .ok r ↔ HasInteger k n r :=
    fun r => result_load_variable_iff hk rfl rfl ht hw hr hv
  constructor
  · intro r h
    exact ⟨(h₁ r).mpr h, (h₂ r).mpr h, (h₃ r).mpr h⟩
  · intro hn
    obtain ⟨e₁, he₁⟩ := exists_error_of_ne_ok fun r he => hn r ((h₁ r).mp he)
    obtain ⟨e₂, he₂⟩ := exists_error_of_ne_ok fun r he => hn r ((h₂ r).mp he)
    obtain ⟨e₃, he₃⟩ := exists_error_of_ne_ok fun r he => hn r ((h₃ r).mp he)
    obtain ⟨f₁, rfl, hf₁⟩ := exists_failure_of_line hl he₁
    obtain ⟨f₂, rfl⟩ := exists_failure_of_stem rfl he₂
    obtain ⟨f₃, rfl, hf₃⟩ := exists_failure_of_variable rfl ht hw hr he₃
    exact ⟨⟨f₁, he₁, hf₁⟩, ⟨f₂, he₂⟩, ⟨f₃, he₃, hf₃⟩⟩

/-- One integer in three spellings. -/
theorem load_integers_tabSize :
    (({} : Draft).loadText ⟨.empty, [], []⟩ "tab_size=+0_8 # wide\n" .assignments .reject).result =
        .ok { tabSize := 8 } ∧
      (({} : Draft).loadText ⟨.empty, [], []⟩ "\x7b\"tab_size\" :8\x7d\n" .json .reject).result =
        .ok { tabSize := 8 } ∧
      (((({} : Draft).withPolicy .reject).withStem "fmt").load
        ⟨.empty, [], [.ofTexts (Text.upper "fmt" ++ "__" ++ "Tab_Size") "\t008 "]⟩).result =
        .ok { tabSize := 8 } := by
  have hl : IntegerText "tab_size=+0_8 # wide\n".toList "tab_size" 8 := by
    have hb : Blanks [] := by simp [Blanks]
    have hd : Digits ['0', '_', '8'] 8 := digits_iff.mpr ⟨List.all_eq_true.mp rfl, rfl, rfl⟩
    have hc : '\n' ∉ " wide".toList := by decide
    have hk := identifier_ofList (c := 't') (s := "ab_size".toList) rfl rfl
    exact .mk hb hk hb hb (.plus hd) (.comment blanks_space (.mk hc)) (.inr rfl)
  have ho : IntegerObject "\x7b\"tab_size\" :8\x7d\n".toList "tab_size" 8 := by
    have hs : Space [' '] := by simp [Space]
    have hb : Space ['\n'] := by simp [Space]
    have hd : Decimal.integerDigits 8 = ['8'] := by cbv
    have hi := IntegerObject.mk (n := 8) space_nil space_nil (quoted_escaped "tab_size".toList) hs
      space_nil space_nil hb
    rw [hd] at hi
    exact hi
  have hv : Spells "\t008 ".toList 8 := by
    have hd : Digits ['0', '0', '8'] 8 := digits_iff.mpr ⟨List.all_eq_true.mp rfl, rfl, rfl⟩
    have hb : ∀ c ∈ ['\t'], Text.isBlank c = true := List.all_eq_true.mp rfl
    have hb' : ∀ c ∈ [' '], Text.isBlank c = true := List.all_eq_true.mp rfl
    exact .mk hb (.unsigned hd) (by decide) hb'
  exact (load_integers (k := .tabSize) .positive .reject ⟨.empty, [], []⟩ hl ho rfl hv).1 _
    ⟨8, .positive (by decide) rfl, rfl, by decide⟩

end Draft

end ListfileSettings
