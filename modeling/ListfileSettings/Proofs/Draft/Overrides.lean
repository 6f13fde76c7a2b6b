import ListfileSettings.Proofs.Draft.Items
import ListfileSettings.Proofs.Override.Decoding

/-!
# Using overrides

An override of a key sets the key to what its text denotes and changes nothing else. If the text
denotes nothing, the override fails and names its variable, and no record is loaded.
-/
namespace ListfileSettings.Draft

open Override Settings Text

variable {d d' : Draft} {stem name value : String} {k : Key} {f : Failure}

theorem isUnder_of_sets (h : Sets stem (name, value) k.text) : isUnder stem name := by
  obtain ⟨rest, hr, -⟩ := h
  exact isUnder_iff.mpr ⟨rest, hr⟩

theorem key?_of_sets (h : Sets stem (name, value) k.text) : key? stem name = some k.text := by
  obtain ⟨rest, hr, ht⟩ := h
  obtain rfl : name = _ := hr
  rw [key?_append, ht]

theorem keyText_eq_of_sets (h : Sets stem (name, value) k.text) : keyText stem name = k.text := by
  rw [keyText, key?_of_sets h]
  rfl

theorem result_addOverride_of_sets (h : Sets stem (name, value) k.text) :
    (d.addOverride stem name value).result = .ok d' ↔
      ∃ w x, Stripped value.toList w ∧ k.kind.TakesText w x ∧
        d' = { d with settings := d.settings.set k x } := by
  rw [result_addOverride_iff (isUnder_of_sets h), keyText_eq_of_sets h, step_known_iff]
  simp only [Kind.denotes_text_iff_takesText]
  constructor
  · intro h
    obtain ⟨x, ⟨w, hw, hx⟩, rfl⟩ := h
    exact ⟨w, x, hw, hx, rfl⟩
  · intro h
    obtain ⟨w, x, hw, hx, rfl⟩ := h
    exact ⟨x, ⟨w, hw, hx⟩, rfl⟩

theorem exists_reason_of_addOverride (h : Sets stem (name, value) k.text)
    (he : (d.addOverride stem name value).result = .error f) :
    ∃ reason, f = .environment name reason := by
  rw [addOverride, key?_of_sets h] at he
  simp only [Key.ofText?_text] at he
  cases hl : literal? k.kind value with
  | none =>
    rw [hl] at he
    exact ⟨_, (Except.error.inj he).symm⟩
  | some v =>
    rw [hl] at he
    dsimp only at he
    cases ha : d.settings.assign k.text v none with
    | ok r =>
      rw [ha] at he
      cases he
    | error f' =>
      obtain ⟨reason, rfl⟩ := exists_reason_of_assign (Key.ofText?_text k) ha
      rw [ha] at he
      exact ⟨reason, (Except.error.inj he).symm⟩

theorem takesText_of_result_load {w : World} {r : Settings} (h : Sets stem (name, value) k.text)
    (hs : d.stem = some stem) (hm : (name, value) ∈ w.texts)
    (hl : (d.load w).result = .ok r) :
    ∃ t x, Stripped value.toList t ∧ k.kind.TakesText t x := by
  obtain ⟨-, hr, -⟩ := result_load_iff.mp hl
  rw [hs] at hr
  have hk := keyText_eq_of_sets h
  have hu : (name, value) ∈ under stem w.texts := by
    refine mem_under_iff.mpr ⟨hm, ?_⟩
    rw [hk]
    exact h
  have hg : (k.text, Given.text value) ∈ overrides w.texts (some stem) := by
    rw [← hk]
    exact List.mem_map.mpr ⟨_, hu, rfl⟩
  obtain ⟨k', x, ht, hx⟩ | ⟨-, hn⟩ := (of_steps hr).1 _ hg
  · obtain rfl := Key.text_injective ht
    obtain ⟨t, ht, hx⟩ := (Kind.denotes_text_iff_takesText _).mp hx
    exact ⟨t, x, ht, hx⟩
  · exact absurd rfl (hn k)

/-- An override of a key succeeds exactly if its text without the blanks around it spells a value of
the key, and then it sets the key to that value and changes nothing else. Otherwise its variable is
at fault and no record is loaded. A list of texts is always taken, and texts that are joined by commas
are what is set. -/
theorem addOverride_decodes (d : Draft) (h : Sets stem (name, value) k.text) :
    (∀ d', (d.addOverride stem name value).result = .ok d' ↔
      ∃ w x, Stripped value.toList w ∧ k.kind.TakesText w x ∧
        d' = { d with settings := d.settings.set k x }) ∧
    (∀ d', (d.addOverride stem name value).result = .ok d' →
      ∀ k', k' ≠ k → d'.settings.get k' = d.settings.get k') ∧
    (∀ f, (d.addOverride stem name value).result = .error f →
      ∃ reason, f = .environment name reason) ∧
    (k = .alwaysWrap → (∃ d', (d.addOverride stem name value).result = .ok d') ∧
      ∀ texts, Joined texts value.toList → (d.addOverride stem name value).result =
        .ok { d with settings := d.settings.set .alwaysWrap texts }) ∧
    ∀ (w : World) (r : Settings), d.stem = some stem → (name, value) ∈ w.texts →
      (d.load w).result = .ok r → ∃ t x, Stripped value.toList t ∧ k.kind.TakesText t x := by
  refine ⟨fun d' => result_addOverride_of_sets h, fun d' ho k' hk => ?_,
    fun f => exists_reason_of_addOverride h, fun hk => ?_, fun w r => takesText_of_result_load h⟩
  · obtain ⟨w, x, -, -, rfl⟩ := (result_addOverride_of_sets h).mp ho
    exact get_set_of_ne _ x hk
  · subst hk
    have ht : Stripped value.toList (trim value).toList := stripped_toList.mpr rfl
    constructor
    · obtain ⟨ts, hs⟩ := exists_separated (trim value).toList
      exact ⟨_, (result_addOverride_of_sets h).mpr ⟨_, _, ht, .names hs, rfl⟩⟩
    · intro texts hj
      exact (result_addOverride_of_sets h).mpr ⟨_, texts, ht, takesText_of_joined hj ht, rfl⟩

/-- An integer with a sign, and with blanks around it. -/
theorem addOverride_decodes_signed :
    Sets "FMTRC" ("FMTRC__Tab_Size", "\t+8 ") Key.tabSize.text ∧
      (({} : Draft).addOverride "FMTRC" "FMTRC__Tab_Size" "\t+8 ").result =
        .ok { settings := { tabSize := 8 } } := by
  have h : Sets "FMTRC" ("FMTRC__Tab_Size", "\t+8 ") Key.tabSize.text :=
    ⟨"Tab_Size", rfl, by decide +kernel⟩
  refine ⟨h, ((addOverride_decodes {} h).1 _).mpr ⟨['+', '8'], 8, ?_, ?_, rfl⟩⟩
  · rw [stripped_toList]
    decide +kernel
  · exact .integer (signed?_eq_some_iff.mp rfl).1 (by decide) (.positive (n := 8) (by decide) rfl)

end ListfileSettings.Draft
