import ListfileSettings.Proofs.Settings.Integers
import ListfileSettings.Proofs.Text.Case

/-!
# What the text of an override denotes

Blanks around the text do not count. What is left spells the value of a key in a form of its own for
each kind: an integer, a word for a truth value in any case, a name, or texts between commas.
-/
namespace ListfileSettings

open Assignment.Grammar (Digits Integer)
open Text

/-- The texts without outer blanks that a kind takes from an override, with the values they denote. An
integer is spelled as in a settings text, but without underscores. -/
inductive Kind.TakesText : (k : Kind) → List Char → k.Value → Prop
  | integer {k : Kind} {w : List Char} {n : Int} {x : k.Value} (h : Integer w n) (hu : '_' ∉ w)
      (hx : k.TakesInteger n x) : TakesText k w x
  | isTrue {w : List Char} (h : String.ofList (w.map Char.toLower) ∈ ["true", "1", "yes", "on"]) :
      TakesText .flag w true
  | isFalse {w : List Char} (h : String.ofList (w.map Char.toLower) ∈ ["false", "0", "no", "off"]) :
      TakesText .flag w false
  | caseStyle (c : CaseStyle) : TakesText .caseStyle (Named.name c).toList c
  | lineEnding (e : LineEnding) : TakesText .lineEnding (Named.name e).toList e
  | names {w : List Char} {ts : List (List Char)} (h : Separated ',' w ts) :
      TakesText .names w ((ts.filter (· ≠ [])).map String.ofList)

namespace Override

variable {t : List Char} {s : String} {m : Nat} {n : Int} {b : Bool}

/-! ### Integers -/

theorem digits_of_natural? (h : Decimal.natural? t = some m) : Digits t m ∧ '_' ∉ t := by
  unfold Decimal.natural? at h
  split at h
  · next hd =>
    simp only [Bool.and_eq_true, Bool.not_eq_true', List.isEmpty_eq_false_iff, List.all_eq_true] at hd
    obtain ⟨hn, hd⟩ := hd
    obtain rfl := Option.some.inj h
    have hg : Digits (['_'].intercalate [t]) (Decimal.value [t].flatten) := .mk (List.cons_ne_nil _ _)
      (List.forall_mem_singleton.mpr ⟨hn, fun c hc => Assignment.Grammar.isDigit_iff.mp (hd c hc)⟩)
    rw [List.flatten_singleton, List.intercalate_singleton] at hg
    exact ⟨hg, fun hu => absurd (hd _ hu) (by decide)⟩
  · cases h

theorem signed?_eq_some_iff : Decimal.signed? t = some n ↔ Integer t n ∧ '_' ∉ t := by
  constructor
  · intro h
    unfold Decimal.signed? at h
    split at h
    · obtain ⟨i, hi, rfl⟩ := Option.map_eq_some_iff.mp h
      obtain ⟨m, hm, hi⟩ := Option.bind_eq_some_iff.mp hi
      obtain rfl := Option.some.inj hi
      obtain ⟨hd, hu⟩ := digits_of_natural? hm
      exact ⟨.minus hd, List.not_mem_cons_of_ne_of_not_mem (by decide) hu⟩
    · obtain ⟨m, hm, rfl⟩ := Option.map_eq_some_iff.mp h
      obtain ⟨hd, hu⟩ := digits_of_natural? hm
      exact ⟨.plus hd, List.not_mem_cons_of_ne_of_not_mem (by decide) hu⟩
    · obtain ⟨m, hm, rfl⟩ := Option.map_eq_some_iff.mp h
      obtain ⟨hd, hu⟩ := digits_of_natural? hm
      exact ⟨.unsigned hd, hu⟩
  · intro h
    exact signed?_of_integer h.1 h.2

/-! ### Truth values -/

/-- The lower case of a text is a word exactly if the text is the word but for the case of its ASCII
letters. -/
theorem lower_mem_iff (words : List (List Char)) (h : ∀ word ∈ words, word.all fun c => IsPlain c) :
    Text.lower s ∈ words.map String.ofList ↔
      String.ofList (s.toList.map Char.toLower) ∈ words.map String.ofList := by
  rw [Text.lower, List.mem_map, List.mem_map]
  refine exists_congr fun word => and_congr_right fun hw => ?_
  have hp : ∀ c ∈ word, IsPlain c := fun c hc =>
    of_decide_eq_true (List.all_eq_true.mp (h word hw) c hc)
  rw [String.ofList_inj, String.ofList_inj, eq_comm, lowerAfter_eq_iff hp, eq_comm]

theorem truthOf?_eq_some_iff : truthOf? s = some b ↔ Kind.TakesText .flag s.toList b := by
  have ht : Text.lower s ∈ ["true", "1", "yes", "on"] ↔
      String.ofList (s.toList.map Char.toLower) ∈ ["true", "1", "yes", "on"] :=
    lower_mem_iff [['t', 'r', 'u', 'e'], ['1'], ['y', 'e', 's'], ['o', 'n']] (by decide)
  have hf : Text.lower s ∈ ["false", "0", "no", "off"] ↔
      String.ofList (s.toList.map Char.toLower) ∈ ["false", "0", "no", "off"] :=
    lower_mem_iff [['f', 'a', 'l', 's', 'e'], ['0'], ['n', 'o'], ['o', 'f', 'f']] (by decide)
  have hd : ∀ word ∈ ["false", "0", "no", "off"], word ∉ ["true", "1", "yes", "on"] := by decide
  simp only [truthOf?, List.contains_iff_mem, ht, hf]
  constructor
  · intro h
    split at h
    · next hw =>
      obtain rfl := Option.some.inj h
      exact .isTrue hw
    · split at h
      · next hw =>
        obtain rfl := Option.some.inj h
        exact .isFalse hw
      · cases h
  · intro h
    cases h with
    | integer _ _ hx => cases hx
    | isTrue hw => rw [if_pos hw]
    | isFalse hw => rw [if_neg (hd _ hw), if_pos hw]

theorem literal?_flag : literal? .flag s = (truthOf? (trim s)).map .boolean := rfl

theorem literal?_names :
    literal? .names s = some (.sequence ((namesOf (trim s)).map .string)) := rfl

/-! ### Texts between commas -/

variable {w value : List Char} {ts ps : List (List Char)} {texts : List String}

theorem namesOf_of_separated (h : Separated ',' s.toList ts) :
    namesOf s = (ts.filter (· ≠ [])).map String.ofList := by
  rw [separated_iff] at h
  subst h
  have ht : (split ',' s).map trim =
      ((pieces ',' s.toList).map fun p => trimEnd (trimStart p)).map String.ofList := by
    rw [split, List.map_map, List.map_map]
    refine List.map_congr_left fun p _ => ?_
    rw [Function.comp_apply, Function.comp_apply, trim, String.toList_ofList]
  rw [namesOf, ht, List.filter_map]
  congr 2
  funext p
  simp

theorem exists_separated (w : List Char) : ∃ ts, Separated ',' w ts :=
  ⟨_, separated_iff.mpr rfl⟩

/-- Texts that are joined by commas, with any blanks around each of them and around all. None of the
texts is empty or has a comma. -/
structure Joined (texts : List String) (value : List Char) : Prop where
  distinct : ∀ t ∈ texts, t ≠ "" ∧ ',' ∉ t.toList
  exists_padded : ∃ ps b b', List.Forall₂ (fun p t => Stripped p t.toList) ps texts ∧
    AllBlank b ∧ AllBlank b' ∧ value = b ++ ([','].intercalate ps ++ b')

theorem not_mem_of_stripped {p : List Char} (h : Stripped p t) (ht : ',' ∉ t) : ',' ∉ p := by
  obtain ⟨b, b', hb, hb', rfl⟩ := h.around
  have hn : ∀ {b : List Char}, AllBlank b → ',' ∉ b := fun hb hm => absurd (hb _ hm) (by decide)
  simp only [List.mem_append, not_or]
  exact ⟨hn hb, ht, hn hb'⟩

theorem not_mem_of_padded (hp : List.Forall₂ (fun p t => Stripped p t.toList) ps texts)
    (hd : ∀ t ∈ texts, ',' ∉ t.toList) : ∀ p ∈ ps, ',' ∉ p := by
  induction hp with
  | nil => nofun
  | cons h hp ih =>
    obtain ⟨ht, hd⟩ := List.forall_mem_cons.mp hd
    exact List.forall_mem_cons.mpr ⟨not_mem_of_stripped h ht, ih hd⟩

theorem exists_separated_of_padded (hd : ∀ t ∈ texts, t ≠ "" ∧ ',' ∉ t.toList)
    (hp : List.Forall₂ (fun p t => Stripped p t.toList) ps texts) :
    ∃ ts, Separated ',' ([','].intercalate ps) ts ∧
      (ts.filter (· ≠ [])).map String.ofList = texts := by
  by_cases hn : ps = []
  · subst hn
    cases hp
    exact ⟨[[]], separated_iff.mpr rfl, rfl⟩
  · have hf : List.Forall₂ Stripped ps (texts.map String.toList) := List.forall₂_map_right_iff.mpr hp
    have hk : (texts.map String.toList).filter (· ≠ []) = texts.map String.toList := by
      rw [List.filter_eq_self]
      intro t ht
      obtain ⟨u, hu, rfl⟩ := List.mem_map.mp ht
      simpa using (hd u hu).1
    refine ⟨_, ⟨ps, hn, not_mem_of_padded hp fun t ht => (hd t ht).2, rfl, hf⟩, ?_⟩
    rw [hk, List.map_map]
    exact List.map_id'' (fun _ => String.ofList_toList) _

theorem takesText_of_joined (h : Joined texts value) (hw : Stripped value w) :
    Kind.TakesText .names w texts := by
  obtain ⟨hd, ps, b, b', hp, hb, hb', rfl⟩ := h
  have hc : isBlank ',' = false := by decide
  obtain ⟨ts, hs, rfl⟩ := exists_separated_of_padded hd hp
  obtain ⟨c, c', hc₁, hc₂, he⟩ := hw.around
  rw [← separated_append_iff hc hb hb', he, separated_append_iff hc hc₁ hc₂] at hs
  exact .names hs

end Override

namespace Kind

open Override

variable {k : Kind} {s : String} {w : List Char} {n : Int}

/-! ### All kinds -/

theorem spells_of_stripped {t : List Char} (h : Stripped t w) (hi : Integer w n) (hu : '_' ∉ w) :
    Spells t n := by
  obtain ⟨b, b', hb, hb', rfl⟩ := h.around
  exact .mk hb hi hu hb'

theorem exists_integer_of_literal? {v : Literal} (hk : k.IsInteger) (h : literal? k s = some v) :
    ∃ n, Integer (trim s).toList n ∧ '_' ∉ (trim s).toList := by
  rw [literal?_integer hk] at h
  obtain ⟨m, hm, -⟩ := Option.map_eq_some_iff.mp h
  obtain ⟨n, hn, -⟩ := Option.bind_eq_some_iff.mp hm
  exact ⟨n, signed?_eq_some_iff.mp hn⟩

theorem takesText_integer_iff (hk : k.IsInteger) {x : k.Value} :
    k.TakesText w x ↔ ∃ n, Integer w n ∧ '_' ∉ w ∧ k.TakesInteger n x := by
  constructor
  · intro h
    cases h with
    | integer hi hu hx => exact ⟨_, hi, hu, hx⟩
    | _ => cases hk
  · intro h
    obtain ⟨n, hi, hu, hx⟩ := h
    exact .integer hi hu hx

theorem takesText_caseStyle_iff {c : CaseStyle} :
    TakesText .caseStyle w c ↔ w = (Named.name c).toList := by
  constructor
  · intro h
    cases h with
    | integer _ _ hx => cases hx
    | caseStyle => rfl
  · intro h
    rw [h]
    exact .caseStyle c

theorem takesText_lineEnding_iff {e : LineEnding} :
    TakesText .lineEnding w e ↔ w = (Named.name e).toList := by
  constructor
  · intro h
    cases h with
    | integer _ _ hx => cases hx
    | lineEnding => rfl
  · intro h
    rw [h]
    exact .lineEnding e

theorem takesText_names_iff {texts : List String} :
    TakesText .names s.toList texts ↔ texts = namesOf s := by
  constructor
  · intro h
    generalize hw : s.toList = w at h
    cases h with
    | integer _ _ hx => cases hx
    | names h => rw [namesOf_of_separated (hw ▸ h)]
  · intro h
    obtain ⟨ts, ht⟩ := exists_separated s.toList
    rw [h, namesOf_of_separated ht]
    exact .names ht

theorem denotes_integer_iff (hk : k.IsInteger) {x : k.Value} :
    (Given.text s).Denotes k x ↔ k.TakesText (trim s).toList x := by
  have ht : Stripped s.toList (trim s).toList := stripped_toList.mpr rfl
  rw [takesText_integer_iff hk]
  constructor
  · intro h
    obtain ⟨v, hv, -⟩ := id h
    obtain ⟨n, hi, hu⟩ := exists_integer_of_literal? hk hv
    exact ⟨n, hi, hu, (denotes_text_iff hk (spells_of_stripped ht hi hu)).mp h⟩
  · intro h
    obtain ⟨n, hi, hu, hx⟩ := h
    exact (denotes_text_iff hk (spells_of_stripped ht hi hu)).mpr hx

theorem denotes_iff_of_literal? {v : Literal} {x : k.Value} (h : literal? k s = some v) :
    (Given.text s).Denotes k x ↔ k.Takes v x := by
  rw [Given.Denotes, h]
  constructor
  · intro hd
    obtain ⟨u, hu, hx⟩ := hd
    rwa [Option.some.inj hu]
  · intro hx
    exact ⟨v, rfl, hx⟩

theorem denotes_flag_iff {b : Bool} :
    (Given.text s).Denotes .flag b ↔ truthOf? (trim s) = some b := by
  rw [Given.Denotes, literal?_flag]
  constructor
  · intro h
    obtain ⟨v, hv, hx⟩ := h
    obtain ⟨b', hb, rfl⟩ := Option.map_eq_some_iff.mp hv
    cases hx
    exact hb
  · intro h
    exact ⟨.boolean b, Option.map_eq_some_iff.mpr ⟨b, h, rfl⟩, .flag b⟩

/-- The text of an override denotes what the kind takes of it without the blanks around it. -/
theorem denotes_text_iff_takesText (k : Kind) {x : k.Value} :
    (Given.text s).Denotes k x ↔ ∃ w, Stripped s.toList w ∧ k.TakesText w x := by
  simp only [stripped_toList, exists_eq_left']
  cases k with
  | positive => exact denotes_integer_iff .positive
  | count => exact denotes_integer_iff .count
  | flag => rw [denotes_flag_iff, truthOf?_eq_some_iff]
  | caseStyle =>
    rw [denotes_iff_of_literal? rfl, takesText_caseStyle_iff, String.toList_inj]
    generalize trim s = t
    constructor
    · intro h
      cases h
      rfl
    · intro h
      rw [h]
      exact .caseStyle x
  | lineEnding =>
    rw [denotes_iff_of_literal? rfl, takesText_lineEnding_iff, String.toList_inj]
    generalize trim s = t
    constructor
    · intro h
      cases h
      rfl
    · intro h
      rw [h]
      exact .lineEnding x
  | names =>
    rw [denotes_iff_of_literal? literal?_names, takesText_names_iff]
    constructor
    · intro h
      exact takes_unique h (.names (namesOf (trim s)))
    · intro h
      rw [h]
      exact .names (namesOf (trim s))

end Kind

end ListfileSettings
