import ListfileSettings.Proofs.Draft.Items
import ListfileSettings.Proofs.Text.Decoding

/-!
# Files

Adding a file comes to adding the text that its octets encode, in the encoding that its name stands
for. Octets that encode no text are a fault of the line that the longest start that does ends on,
whatever else is wrong with them.
-/
namespace ListfileSettings.Draft

open Text.Utf8

variable {d : Draft} {w : World} {path text : String} {bytes : List UInt8}

/-! ### Texts of files -/

theorem decode_of_encodes (h : text.toUTF8 = bytes.toByteArray) : decode bytes = .ok text := by
  rw [decode, decode_of_toUTF8 h]
  exact congrArg _ String.ofList_toList

theorem exists_fault_of_not_valid (h : ¬ bytes.toByteArray.IsValidUTF8) :
    ∃ start length, IsLongestValid start bytes ∧
      decode bytes = .error (.malformed (start.count '\n'.toUInt8 + 1)
        (flawMessage ⟨start.length, length⟩)) := by
  obtain ⟨flaw, hf, hs, hl⟩ := decode_of_not_valid h
  refine ⟨_, flaw.length, hs, ?_⟩
  rw [decode, hf, hl]
  rfl

/-! ### Adding files -/

/-- A file is read and decoded before anything of its text is used. -/
theorem addFile_eq (h : w.entry? path = some (.file bytes)) : d.addFile w path =
    (⟨[.read path bytes.length], decode bytes⟩ : Logged Failure String) >>= fun text =>
      (fun d => { d with source := some path }) <$> d.addText text (Encoding.ofPath path) := by
  simp only [addFile, h]
  cases decode bytes <;> rfl

theorem addFile_of_encodes (h : w.entry? path = some (.file bytes))
    (ht : text.toUTF8 = bytes.toByteArray) : d.addFile w path =
      ⟨.read path bytes.length :: (d.addText text (Encoding.ofPath path)).events,
        (d.addText text (Encoding.ofPath path)).result.map fun d =>
          { d with source := some path }⟩ := by
  rw [addFile_eq h, decode_of_encodes ht, Logged.bind_ok, Logged.map_eq]
  rfl

theorem result_load_source (d : Draft) (w : World) (source : Option String) :
    (load { d with source } w).result = (d.load w).result := by
  by_cases h : d.FindsText w
  · have h' : FindsText { d with source } w := h
    rw [load_of_findsText h, load_of_findsText h']
    refine congrArg (Except.mapError _) ?_
    rw [result_loadFrom, result_loadFrom]
  · have h' : ¬ FindsText { d with source } w := h
    rw [load_of_not_findsText h, load_of_not_findsText h']

theorem result_load_addFile (h : w.entry? path = some (.file bytes))
    (ht : text.toUTF8 = bytes.toByteArray) :
    ((d.addFile w path).lift >>= fun d => d.load w).result =
      ((d.addText text (Encoding.ofPath path)).lift >>= fun d => d.load w).result := by
  rw [Logged.result_bind, Logged.result_bind, addFile_of_encodes h ht, Logged.lift, Logged.lift,
    Logged.mapFailure, Logged.mapFailure]
  cases (d.addText text (Encoding.ofPath path)).result with
  | error f => rfl
  | ok d' => exact result_load_source d' w (some path)

/-- A file is added as the text that its octets encode: it makes the same record, then and when it is
loaded, or it fails in the same way. Octets that encode no text are a fault of the line on which the
longest start that encodes one ends, whatever the encoding is. -/
theorem addFile_decodes (d : Draft) (h : w.entry? path = some (.file bytes)) :
    (∀ text : String, text.toUTF8 = bytes.toByteArray →
      (d.addFile w path).result = (d.addText text (Encoding.ofPath path)).result.map
        (fun d => { d with source := some path }) ∧
      ((d.addFile w path).lift >>= fun d => d.load w).result =
        ((d.addText text (Encoding.ofPath path)).lift >>= fun d => d.load w).result) ∧
    (¬ bytes.toByteArray.IsValidUTF8 → ∃ start length, IsLongestValid start bytes ∧
      (d.addFile w path).result = .error (.malformed (start.count '\n'.toUInt8 + 1)
        (flawMessage ⟨start.length, length⟩))) := by
  constructor
  · intro text ht
    exact ⟨by rw [addFile_of_encodes h ht], result_load_addFile h ht⟩
  · intro hn
    obtain ⟨start, length, hs, hf⟩ := exists_fault_of_not_valid hn
    exact ⟨start, length, hs, by rw [addFile_eq h, hf]; rfl⟩

/-- A file whose third octet begins no character has its fault on the second line. -/
theorem addFile_decodes_second_line :
    World.entry? ⟨⟨[(["settings"], .file [0x61, 0x0A, 0xFF])]⟩, [], []⟩ "/settings" =
        some (.file [0x61, 0x0A, 0xFF]) ∧
      ∃ length, (({} : Draft).addFile ⟨⟨[(["settings"], .file [0x61, 0x0A, 0xFF])]⟩, [], []⟩
        "/settings").result = .error (.malformed 2 (flawMessage ⟨2, length⟩)) := by
  have hw : World.entry? ⟨⟨[(["settings"], .file [0x61, 0x0A, 0xFF])]⟩, [], []⟩ "/settings" =
      some (.file [0x61, 0x0A, 0xFF]) := by decide +kernel
  have hn : ¬ [0x61, 0x0A, (0xFF : UInt8)].toByteArray.IsValidUTF8 := by
    rw [isValidUTF8_iff]
    intro h
    obtain ⟨cs, hc⟩ := h
    cases decode_eq_ok_iff.mpr hc
  obtain ⟨start, length, hs, hf⟩ := (addFile_decodes {} hw).2 hn
  have hle : 2 ≤ start.length :=
    hs.longest [0x61, 0x0A] ⟨[0xFF], rfl⟩ (isValidUTF8_iff.mpr ⟨['a', '\n'], rfl⟩)
  have hlt : start.length < 3 := by
    refine Nat.lt_of_le_of_ne hs.isPrefix.length_le fun he => hn ?_
    rw [← hs.isPrefix.eq_of_length he]
    exact hs.valid
  have ht : start = [0x61, 0x0A] := by
    rw [List.prefix_iff_eq_take.mp hs.isPrefix, show start.length = 2 by omega]
    rfl
  subst ht
  exact ⟨hw, length, hf⟩

end ListfileSettings.Draft
