import ListfileSettings.CommandLine.Run
import ListfileSettings.Proofs.Draft.Written
import ListfileSettings.Proofs.Text.Utf8

/-!
# Loading what was printed

A command prints valid records only. A file with what was printed is loaded as the record, so it is
printed again as it was.
-/
namespace ListfileSettings

theorem Draft.decode_encode (text : String) :
    Draft.decode (Text.Utf8.encode text.toList) = .ok text := by
  rw [Draft.decode, Text.Utf8.decode_encode]
  exact congrArg Except.ok String.ofList_toList

namespace CommandLine

open Settings

variable {o o' : Options} {origin : Origin} {w w' : World} {r : Settings} {f g : Encoding}
  {path text : String}

/-! ### Loading -/

/-- The draft with the stem of the overrides, unless these are ignored. -/
def toLoad (o : Options) (d : Draft) : Draft :=
  if o.ignoresOverrides then d else d.withStem o.stem

theorem source_toLoad (d : Draft) : (toLoad o d).source = d.source := by
  unfold toLoad
  split <;> rfl

theorem result_load_iff {source : Option String} : (load o origin w).result = .ok (r, source) ↔
    ∃ d, (draft o origin w).result = .ok d ∧ ((toLoad o d).load w).result = .ok r ∧
      d.source = source := by
  rw [load, Logged.result_bind, bind_eq_ok]
  simp only [Logged.result_lift_iff]
  refine exists_congr fun d => and_congr_right fun _ => ?_
  change (_ >>= fun r => pure (r, (toLoad o d).source) : Logged _ _).result = _ ↔ _
  rw [Logged.result_bind, bind_eq_ok, source_toLoad]
  simp only [Logged.result_mapFailure_iff, Logged.pure_eq, Except.ok.injEq, Prod.mk.injEq]
  constructor
  · intro h
    obtain ⟨_, hr, rfl, hs⟩ := h
    exact ⟨hr, hs⟩
  · intro h
    exact ⟨r, h.1, rfl, h.2⟩

theorem validate_of_load {source : Option String}
    (h : (load o origin w).result = .ok (r, source)) : r.validate = .ok () := by
  obtain ⟨d, -, hr, -⟩ := result_load_iff.mp h
  exact (Draft.result_load_iff.mp hr).2.2

/-- Without overrides, a file whose settings make a valid record is loaded as the record. -/
theorem load_of_makes {directory : String} {es : List Setting} (hi : o.ignoresOverrides = true)
    (he : Given.fileSettings? w path = some es) (hm : Makes es r) (hv : r.validate = .ok ()) :
    (load o { file := some path, directory } w).result = .ok (r, some path) := by
  have hd : (draft o { file := some path, directory } w).result =
      .ok { settings := r, policy := o.unknownKeys, source := some path } :=
    Logged.result_mapFailure_iff.mpr (Draft.result_addFile_iff.mpr ⟨es, r, he, hm _ _, rfl⟩)
  refine result_load_iff.mpr ⟨_, hd, ?_, rfl⟩
  -- The draft has no stem, so no variable is looked at.
  rw [toLoad, if_pos hi]
  exact Draft.result_load_iff.mpr ⟨.inl rfl, .nil, hv⟩

/-! ### Printing -/

theorem result_print_iff (hc : o.command = .print origin f) : (o.run w).result = .ok text ↔
    ∃ r source, (load o origin w).result = .ok (r, source) ∧ text = printed r f := by
  unfold Options.run
  rw [hc]
  dsimp only
  rw [Logged.result_bind, bind_eq_ok]
  constructor
  · intro h
    obtain ⟨⟨r, source⟩, hl, ht⟩ := h
    exact ⟨r, source, hl, (Except.ok.inj ht).symm⟩
  · intro h
    obtain ⟨r, source, hl, rfl⟩ := h
    exact ⟨(r, source), hl, rfl⟩

theorem denotes_printed (r : Settings) : Json.Grammar.Denotes (printed r .json) r.bindings := by
  have hl : Json.Grammar.Space ['\n'] := by simp [Json.Grammar.Space]
  exact r.denotes_pretty hl

/-- What is printed of a record without a width of zero makes the record. -/
theorem makes_printed (h : ∀ k : Key, k.kind.Admits (r.get k)) (f : Encoding) :
    ∃ es, Given.settings? (printed r f) f = some es ∧ Makes es r := by
  cases f with
  | assignments => exact makes_listing h
  | json => exact makes_of_denotes (denotes_printed r)

theorem load_printed {directory : String} (hv : r.validate = .ok ())
    (hf : w.entry? path = some (.file (Text.Utf8.encode (printed r f).toList)))
    (he : Encoding.ofPath path = f) (hi : o.ignoresOverrides = true) :
    (load o { file := some path, directory } w).result = .ok (r, some path) := by
  -- A listing with a width of zero would be refused, but a record that was loaded has none.
  obtain ⟨es, hs, hm⟩ := makes_printed (admits_of_validate hv) f
  have hfs : Given.fileSettings? w path = some es := by
    rw [Given.fileSettings?, hf]
    dsimp only
    rw [Draft.decode_encode, he]
    exact hs
  exact load_of_makes hi hfs hm hv

/-- When a command has printed a record, a file with the text prints in each encoding what the
command would have printed in it, wherever the file is and whatever becomes of unknown keys. -/
theorem print_reloaded {directory : String} (hc : o.command = .print origin f)
    (hr : (o.run w).result = .ok text)
    (hf : w'.entry? path = some (.file (Text.Utf8.encode text.toList)))
    (he : Encoding.ofPath path = f)
    (hc' : o'.command = .print { file := some path, directory } g)
    (hi : o'.ignoresOverrides = true) :
    ∃ out, (o'.run w').result = .ok out ∧
      ({ o with command := .print origin g }.run w).result = .ok out := by
  obtain ⟨r, source, hl, rfl⟩ := (result_print_iff hc).mp hr
  have hl' : (load o' { file := some path, directory } w').result = .ok (r, some path) :=
    load_printed (validate_of_load hl) hf he hi
  refine ⟨printed r g, (result_print_iff hc').mpr ⟨r, some path, hl', rfl⟩, ?_⟩
  exact (result_print_iff rfl).mpr ⟨r, source, hl, rfl⟩

/-- A record goes from a listing to a JSON file and back. -/
theorem print_reloaded_json :
    let r : Settings := { tabSize := 4, alwaysWrap := ["\u00fc'\n"] }
    let w : World := ⟨⟨[(["a"], .file (Text.Utf8.encode (printed r .assignments).toList))]⟩, [], []⟩
    let w' : World := ⟨⟨[(["b.JSON"], .file (Text.Utf8.encode (printed r .json).toList))]⟩, [], []⟩
    let o : Options := { command := .print { file := some "/a" } .json, ignoresOverrides := true }
    let o' : Options := { command := .print { file := some "/b.JSON" } .assignments
                          unknownKeys := .warn
                          ignoresOverrides := true }
    ∃ out, (o'.run w').result = .ok out ∧
      ({ o with command := .print { file := some "/a" } .assignments }.run w).result = .ok out := by
  intro r w w' o o'
  have ha : w.entry? "/a" = some (.file (Text.Utf8.encode (printed r .assignments).toList)) := rfl
  have hb : w'.entry? "/b.JSON" = some (.file (Text.Utf8.encode (printed r .json).toList)) := rfl
  have hl : (load o { file := some "/a" } w).result = .ok (r, some "/a") :=
    load_printed rfl ha rfl rfl
  have hr : (o.run w).result = .ok (printed r .json) :=
    (result_print_iff rfl).mpr ⟨r, some "/a", hl, rfl⟩
  exact print_reloaded rfl hr hb rfl rfl rfl

end CommandLine

end ListfileSettings
