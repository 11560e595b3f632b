import FighterData.Proofs.Command.Verify
import FighterData.Proofs.ObjectBinary.Canonical

/-! Encoding and decoding undo each other. A well-formed value is read back from its bytes, a file
that is laid out least is rebuilt byte for byte, and whatever is read from any file is well formed,
so that a second rebuild changes nothing more. -/
namespace FighterData.ObjectBinary

variable {binary : ObjectBinary} {data : Bytes}

/-- A file that is laid out least. -/
def Canonical (data : Bytes) : Prop :=
  ∃ plan : Plan, plan.bytes = data ∧ plan.Canonical

theorem wellFormed_of_decode (read : decode data = .ok binary) : binary.WellFormed := by
  obtain ⟨plan, _, rfl⟩ := decode_eq_ok_iff.mp read
  exact plan.wellFormed

/-- The bytes of a well-formed value are a canonical file of that value. -/
theorem exists_plan_of_wellFormed (fits : binary.WellFormed)
    (short : binary.bytes.length < PointerTable.sentinel) :
    ∃ plan : Plan, plan.Canonical ∧ plan.binary = binary ∧ plan.bytes = binary.bytes := by
  obtain ⟨plan, least, rfl⟩ := Plan.exists_canonical fits short
  exact ⟨plan, least, rfl, least.bytes_eq.symm⟩

theorem canonical_bytes (fits : binary.WellFormed)
    (short : binary.bytes.length < PointerTable.sentinel) : Canonical binary.bytes := by
  obtain ⟨plan, least, _, bytes⟩ := exists_plan_of_wellFormed fits short
  exact ⟨plan, bytes, least⟩

theorem encode_of_short (fits : binary.WellFormed)
    (short : binary.bytes.length < PointerTable.sentinel) : binary.encode = .ok binary.bytes := by
  obtain ⟨plan, least, rfl, bytes⟩ := exists_plan_of_wellFormed fits short
  rw [← bytes]
  exact least.encode_eq

theorem decode_bytes (fits : binary.WellFormed)
    (short : binary.bytes.length < PointerTable.sentinel) : decode binary.bytes = .ok binary := by
  obtain ⟨plan, _, shown, bytes⟩ := exists_plan_of_wellFormed fits short
  exact decode_eq_ok_iff.mpr ⟨plan, bytes, shown⟩

theorem decode_of_encode (fits : binary.WellFormed) (encoded : binary.encode = .ok data)
    (short : data.length < PointerTable.sentinel) : decode data = .ok binary := by
  obtain ⟨_, rfl⟩ := (encode_eq_ok_iff fits).mp encoded
  exact decode_bytes fits short

/-- Nothing but an offset that is too large keeps a well-formed value from being encoded. -/
theorem exists_offset_of_encode_error (fits : binary.WellFormed) {fault : Fault}
    (refused : binary.encode = .error fault) :
    ∃ offset ∈ binary.offsets, Width.u32.holds offset = false := by
  by_cases held : ∀ offset ∈ binary.offsets, Width.u32.holds offset = true
  · have success := (encode_eq_ok_iff fits).mpr ⟨held, rfl⟩
    rw [refused] at success
    cases success
  · simpa using held

/-- The first word of a table is a multiple of 16, so what starts with one starts with no magic. -/
theorem detect_of_table {blocks : List Bytes} (some : blocks ≠ []) (count padding : Nat)
    (rest : Bytes) :
    Wrapper.detect (PointerTable.spell .little
      (Entry.pointersFrom (PointerTable.startOf count) blocks) padding ++ rest) = none := by
  have word (offset : Nat) : Width.u32.encode offset =
      UInt8.ofNat (offset % 0x100000000) :: Bytes.ofNat 3 (offset % 0x100000000 / 256) := rfl
  have aligned := PointerTable.startOf_dvd count
  cases blocks with
  | nil => exact absurd rfl some
  | cons block others =>
      simp only [PointerTable.spell, PointerTable.wordBytes, Entry.pointersFrom, List.flatMap_cons,
        ByteOrder.arrange, word, List.cons_append]
      refine Wrapper.detect_of_aligned ?_
      rw [UInt8.toNat_ofNat']
      omega

theorem detect_bytes (binary : ObjectBinary) : Wrapper.detect binary.bytes = none := by
  rw [bytes, PointerTable.layOut_nil]
  exact detect_of_table (by simp [regions]) _ _ _

/-- A rebuilt file is accepted by the check of files. -/
theorem verify_bytes {file : String} {desk : Command.Desk} (fits : binary.WellFormed)
    (short : binary.bytes.length < PointerTable.sentinel)
    (held : desk.workspace.readFile (Path.ofString file) = .ok binary.bytes) :
    ((Command.verify file).run desk).1 = .ok true :=
  Command.verify_of_rebuilt held (Wrapper.contents_of_detect (detect_bytes binary))
    (decode_bytes fits short)
    (encode_of_short fits short)

/-- A file with a cell that two slots share, a sprite with a terminator of four bytes, a script that
ends in the header of its second action, an object and a blob. -/
def small : ObjectBinary where
  player := {
    cells := [{}, {}]
    cellAliases := [1]
    sprites := [⟨List.replicate 8 7, [1, 2, 3, 4], [4, 0, 4, 0]⟩]
    script := {
      block := Bytes.filled 0 0xB0
      actions := [
        { flags := 1, body := .code [.ofSlots .unk5 [2, 0], .ofSlots .actionEnd [6, 7]] },
        { flags := 0xFD, body := .code [.scriptEnd 0 0] }] } }
  objects := [{
    script := { actions := [{ flags := 0, body := .code [.ofSlots .scriptEnd [0, 0]] }] }
    unused := 5 }]
  audio := ⟨[[1, 2, 3]]⟩

theorem small_wellFormed : small.WellFormed where
  player := {
    cells := by decide
    cellAliases := ⟨by decide, by decide⟩
    sprites := ⟨by decide, by decide, by
      intro sprite last
      obtain rfl := Option.some.inj last
      rfl⟩
    script := {
      playData := rfl
      block := Bytes.length_filled _ _
      actions := ⟨[_], _, rfl, by
        rw [List.forall_mem_singleton]
        exact ⟨⟨rfl, by decide, by decide⟩, by decide, ⟨[_], _, rfl, by decide, rfl⟩⟩,
        ⟨rfl, by decide, by decide⟩, Or.inl ⟨by decide, 0, 0, rfl, by decide⟩⟩ }
    palettes := by decide
    paletteAliases := ⟨by decide, by decide⟩ }
  objects := by
    intro object member
    obtain rfl := List.mem_singleton.mp member
    exact {
      cells := by decide
      cellAliases := ⟨by decide, by decide⟩
      sprites := ⟨by decide, by decide, by intro sprite last; cases last⟩
      script := ⟨[], _, rfl, by simp, ⟨rfl, by decide, by decide⟩,
        Or.inr ⟨by decide, ⟨[], _, rfl, by simp, rfl⟩⟩⟩
      unused := by decide }

theorem short_small : (small.bytes.length : Int) < PointerTable.sentinel := by
  decide +kernel

/-- A well-formed value whose bytes stay below the closing word is read back from its encoding. -/
theorem decode_encode_of_wellFormed (fits : binary.WellFormed) :
    (binary.bytes.length < PointerTable.sentinel → binary.encode = .ok binary.bytes) ∧
      ∀ data, binary.encode = .ok data → data.length < PointerTable.sentinel →
        decode data = .ok binary :=
  ⟨encode_of_short fits, fun _ encoded short => decode_of_encode fits encoded short⟩

theorem decode_encode_small : small.encode = .ok small.bytes ∧ decode small.bytes = .ok small := by
  have whole := decode_encode_of_wellFormed small_wellFormed
  have encoded := whole.1 short_small
  exact ⟨encoded, whole.2 small.bytes encoded short_small⟩

/-- A file that is laid out least is rebuilt byte for byte. -/
theorem encode_decode_of_canonical (read : decode data = .ok binary) (canonical : Canonical data) :
    binary.encode = .ok data := by
  obtain ⟨plan, rfl, least⟩ := canonical
  have shown : decode plan.bytes = .ok plan.binary := decode_eq_ok_iff.mpr ⟨plan, rfl, rfl⟩
  obtain rfl := Except.ok.inj (read.symm.trans shown)
  exact least.encode_eq

theorem encode_decode_small : decode small.bytes = .ok small ∧ Canonical small.bytes ∧
    small.encode = .ok small.bytes := by
  have read := decode_bytes small_wellFormed short_small
  have canonical := canonical_bytes small_wellFormed short_small
  exact ⟨read, canonical, encode_decode_of_canonical read canonical⟩

/-- What is read from any file is well formed. Its encoding can only be refused for an offset that
is too large; it is read back as the same value, is its own encoding, and passes the check of
files. -/
theorem rebuild_normal_form (read : decode data = .ok binary) :
    binary.WellFormed ∧
      (∀ fault, binary.encode = .error fault →
        ∃ offset ∈ binary.offsets, Width.u32.holds offset = false) ∧
      ∀ rebuilt, binary.encode = .ok rebuilt → rebuilt.length < PointerTable.sentinel →
        decode rebuilt = .ok binary ∧ (decode rebuilt >>= encode) = .ok rebuilt ∧
        ∀ (file : String) (desk : Command.Desk),
          desk.workspace.readFile (Path.ofString file) = .ok rebuilt →
            ((Command.verify file).run desk).1 = .ok true := by
  have fits := wellFormed_of_decode read
  refine ⟨fits, fun _ => exists_offset_of_encode_error fits, ?_⟩
  intro rebuilt encoded short
  have again := decode_of_encode fits encoded short
  refine ⟨again, ?_, ?_⟩
  · rw [again]
    exact encoded
  · intro file desk held
    obtain ⟨_, rfl⟩ := (encode_eq_ok_iff fits).mp encoded
    exact verify_bytes fits short held

/-- The file of `small` with longer fillings than it needs, and a value in a reserved slot. -/
def Plan.loose : Plan where
  padding := 20
  player := {
    gap := 4
    cells := {
      runs := [⟨⟨{}, by decide⟩, 1, 3⟩]
      padding := 8
      before := 2
      after := 1
      room := by decide
      empty := by decide
      bounded := by decide }
    sprites := {
      row := .row [] ⟨List.replicate 8 7, by decide, [1, 2, 3, 4], [4, 0, 4, 0], rfl⟩
      padding := 7
      before := 0
      after := 5
      room := by decide
      empty := by decide
      bounded := by decide }
    script := ⟨{
      playData := {}
      fits := rfl
      block := Bytes.filled 0 0xB0
      size := Bytes.length_filled _ _
      actions := ⟨[⟨[1, 0, 0, 0], by decide, [⟨.unk5, [2, 9], by decide⟩,
        ⟨.actionEnd, [6, 7], by decide⟩], by decide⟩,
        ⟨[0xFD, 0, 0, 0], by decide, [], by decide⟩], by decide⟩ }, 9⟩
    palettes := {
      runs := []
      padding := 16
      before := 3
      after := 0
      room := by decide
      empty := fun _ => rfl
      bounded := by decide }
    fits := by decide +kernel }
  objects := [{
    gap := 0
    cells := ⟨[], 16, 0, 0, by decide, fun _ => rfl, by decide⟩
    sprites := ⟨.empty, 16, 0, 0, by decide, fun _ => rfl, by decide⟩
    script := ⟨⟨⟨[⟨[0, 0, 0, 0], by decide, [⟨.scriptEnd, [0, 0], by decide⟩], by decide⟩],
      by decide⟩⟩, 0⟩
    unused := 5
    fits := by decide +kernel }]
  audio := ⟨[[1, 2, 3]], 9, by decide, by decide, by decide⟩
  room := by decide
  bounded := by decide +kernel

theorem rebuild_loose : decode Plan.loose.bytes = .ok small ∧ Plan.loose.bytes ≠ small.bytes ∧
    decode small.bytes = .ok small ∧ (decode small.bytes >>= encode) = .ok small.bytes := by
  have read : decode Plan.loose.bytes = .ok small := decode_eq_ok_iff.mpr ⟨_, rfl, rfl⟩
  have different : Plan.loose.bytes ≠ small.bytes := by
    intro same
    have length : Plan.loose.bytes.length = small.bytes.length := congrArg List.length same
    revert length
    decide +kernel
  obtain ⟨fits, _, rebuild⟩ := rebuild_normal_form read
  have again := rebuild small.bytes (encode_of_short fits short_small) short_small
  exact ⟨read, different, again.1, again.2.1⟩

end FighterData.ObjectBinary
