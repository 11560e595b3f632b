import Mathlib
import FighterData.Proofs.Command.Job
import FighterData.Proofs.ObjectBinary.Layout

/-! Saving and loading. A compressed file starts with its magic and is unpacked to what was packed. A
file that is not compressed starts with the place of its first part, and no magic starts with the
byte of such a place. So loading what was saved gives the binary and the compression back. -/
namespace FighterData

variable {binary : ObjectBinary} {data : Bytes}

theorem ObjectBinary.detect_of_encode (encoded : binary.encode = .ok data) :
    Wrapper.detect data = none := by
  obtain ⟨parts, _, rfl⟩ := exists_parts_of_encode encoded
  exact detect_of_table (List.cons_ne_nil parts.player _) _ _ _

theorem ObjectBinary.small_sizesFit : Wrapper.SizesFit small.bytes := by
  have size : small.bytes.length = 5395 := by decide +kernel
  refine Wrapper.sizesFit_of_bound ?_
  rw [size]
  decide

namespace Command

variable {wrapper : Option Wrapper} {packed : Bytes} {desk after : Desk} {path : Path}

theorem exists_pack (fits : wrapper ≠ none → Wrapper.SizesFit data) :
    ∃ packed, pack wrapper data = .ok packed := by
  cases wrapper with
  | none => exact ⟨data, rfl⟩
  | some wrapper => exact ⟨_, Wrapper.wrap_eq_ok_iff.mpr ⟨fits (by simp), rfl⟩⟩

/-- What was packed is recognized and unpacked, if it is not taken for a packed file itself. -/
theorem contents_of_pack (plain : Wrapper.detect data = none)
    (packs : pack wrapper data = .ok packed) :
    Wrapper.contents packed = .ok data ∧ Wrapper.detect packed = wrapper := by
  cases wrapper with
  | none =>
      obtain rfl := Except.ok.inj packs
      exact ⟨Wrapper.contents_of_detect plain, plain⟩
  | some wrapper =>
      obtain ⟨fits, rfl⟩ := Wrapper.wrap_eq_ok_iff.mp packs
      exact ⟨Wrapper.contents_bytes fits, Wrapper.detect_bytes wrapper data⟩

theorem run_saveBinary_eq_ok_iff :
    (saveBinary binary path wrapper).run desk = (.ok (), after) ↔
      ∃ data packed changed, binary.encode = .ok data ∧ pack wrapper data = .ok packed ∧
        desk.workspace.writeFile path packed = .ok changed ∧
        after = { desk with workspace := changed } := by
  simp only [saveBinary, run_bind_eq_ok_iff, run_check_eq_ok_iff, run_writeFile_eq_ok_iff]
  constructor
  · rintro ⟨data, _, ⟨encoded, rfl⟩, packed, _, ⟨packs, rfl⟩, changed, written, rfl⟩
    exact ⟨data, packed, changed, encoded, packs, written, rfl⟩
  · rintro ⟨data, packed, changed, encoded, packs, written, rfl⟩
    exact ⟨data, _, ⟨encoded, rfl⟩, packed, _, ⟨packs, rfl⟩, changed, written, rfl⟩

theorem exists_run_saveBinary (encoded : binary.encode = .ok data)
    (fits : wrapper ≠ none → Wrapper.SizesFit data) (writable : desk.workspace.Writable path) :
    ∃ after, (saveBinary binary path wrapper).run desk = (.ok (), after) := by
  obtain ⟨packed, packs⟩ := exists_pack fits
  obtain ⟨changed, written⟩ := writable.exists_writeFile packed
  exact ⟨_, run_saveBinary_eq_ok_iff.mpr ⟨data, packed, changed, encoded, packs, written, rfl⟩⟩

/-- A saved file is loaded as what its encoding is read as. -/
theorem loads_of_save (saved : (saveBinary binary path wrapper).run desk = (.ok (), after)) :
    ∃ data, binary.encode = .ok data ∧ ∀ other mark, after.Loads path other mark ↔
      ObjectBinary.decode data = .ok other ∧ mark = wrapper := by
  obtain ⟨data, packed, changed, encoded, packs, written, rfl⟩ :=
    run_saveBinary_eq_ok_iff.mp saved
  obtain ⟨unpacked, mark⟩ := contents_of_pack (ObjectBinary.detect_of_encode encoded) packs
  have held := Workspace.readFile_of_writeFile written
  refine ⟨data, encoded, ?_⟩
  intro other sign
  rw [Desk.loads_iff]
  constructor
  · rintro ⟨_, _, found, contents, read, rfl⟩
    obtain rfl := Except.ok.inj (held.symm.trans found)
    obtain rfl := Except.ok.inj (unpacked.symm.trans contents)
    exact ⟨read, mark⟩
  · rintro ⟨read, rfl⟩
    exact ⟨packed, data, held, unpacked, read, mark⟩

/-- What a file is loaded as is well formed. -/
theorem Desk.Loads.wellFormed (loads : desk.Loads path binary wrapper) : binary.WellFormed := by
  obtain ⟨_, _, _, _, read, _⟩ := Desk.loads_iff.mp loads
  exact ObjectBinary.wellFormed_of_decode read

/-- Packed data are recognized and unpacked, no encoded binary is taken for packed data, and a binary
that is read back from its encoding is loaded as it was saved. -/
theorem loads_saved :
    (∀ (wrapper : Wrapper) (data : Bytes), Wrapper.SizesFit data →
      ∃ packed, wrapper.wrap data = .ok packed ∧ Wrapper.contents packed = .ok data ∧
        Wrapper.detect packed = some wrapper) ∧
    (∀ (binary : ObjectBinary) (data : Bytes), binary.encode = .ok data →
      Wrapper.detect data = none) ∧
    ∀ (binary : ObjectBinary) (data : Bytes) (wrapper : Option Wrapper) (path : Path)
      (desk : Desk), binary.encode = .ok data → ObjectBinary.decode data = .ok binary →
        (wrapper ≠ none → Wrapper.SizesFit data) → desk.workspace.Writable path →
          ∃ after, (saveBinary binary path wrapper).run desk = (.ok (), after) ∧
            after.Loads path binary wrapper := by
  refine ⟨?_, fun _ _ => ObjectBinary.detect_of_encode, ?_⟩
  · intro wrapper data fits
    exact ⟨_, Wrapper.wrap_eq_ok_iff.mpr ⟨fits, rfl⟩, Wrapper.contents_bytes fits,
      Wrapper.detect_bytes wrapper data⟩
  · intro binary data wrapper path desk encoded read fits writable
    obtain ⟨after, saved⟩ := exists_run_saveBinary encoded fits writable
    obtain ⟨found, same, loads⟩ := loads_of_save saved
    obtain rfl := Except.ok.inj (encoded.symm.trans same)
    exact ⟨after, saved, (loads binary wrapper).mpr ⟨read, rfl⟩⟩

theorem loads_saved_small :
    (∃ after, (saveBinary .small (Path.ofString "out.bin") none).run { workspace := {} } =
        (.ok (), after) ∧ after.Loads (Path.ofString "out.bin") .small none) ∧
      ∃ after, (saveBinary .small (Path.ofString "out.bin") (some .dfasfpac)).run
        { workspace := {} } = (.ok (), after) ∧
          after.Loads (Path.ofString "out.bin") .small (some .dfasfpac) := by
  have encoded := ObjectBinary.encode_of_short ObjectBinary.small_wellFormed
    ObjectBinary.short_small
  have read := ObjectBinary.decode_bytes ObjectBinary.small_wellFormed ObjectBinary.short_small
  have writable : Workspace.Writable {} (Path.ofString "out.bin") :=
    ⟨["out.bin"], by cbv, by decide⟩
  obtain ⟨_, _, saves⟩ := loads_saved
  exact ⟨saves _ _ _ _ _ encoded read (fun some => absurd rfl some) writable,
    saves _ _ _ _ _ encoded read (fun _ => ObjectBinary.small_sizesFit) writable⟩

end Command

end FighterData
