import FighterData.Proofs.Entry.Layout
import FighterData.Proofs.ObjectBinary.RoundTrip
import FighterData.Selection

/-! Where the parts of an encoded file stand, for every value that can be encoded. The table holds
the places of the parts, and reading it gives them back: they are multiples of 16, so none of them
is the closing word. New actions for one entry leave the bytes of all other parts as they are and
move those behind it by whole pages. -/
namespace FighterData

/-- A changed member changes the encoding at its place and nowhere else. -/
theorem mapM_modify {ε α β : Type} {encode : α → Except ε β} {change : α → α} {items : List α}
    {index : Nat} {encoded again : List β} (inside : index < items.length)
    (first : items.mapM encode = .ok encoded)
    (second : (items.modify index change).mapM encode = .ok again) :
    ∃ front old new back, encoded = front ++ old :: back ∧ again = front ++ new :: back ∧
      front.length = index ∧ ∃ a, encode a = .ok old ∧ encode (change a) = .ok new := by
  induction items generalizing index encoded again with
  | nil => cases inside
  | cons a rest ih =>
      simp only [List.mapM_cons, bind_eq_ok_iff, pure, Except.pure, Except.ok.injEq] at first
      obtain ⟨b, head, others, behind, rfl⟩ := first
      cases index with
      | zero =>
          simp only [List.modify_zero_cons, List.mapM_cons, bind_eq_ok_iff, pure, Except.pure,
            Except.ok.injEq] at second
          obtain ⟨c, changed, same, kept, rfl⟩ := second
          obtain rfl := Except.ok.inj (behind.symm.trans kept)
          exact ⟨[], b, c, others, rfl, rfl, rfl, a, head, changed⟩
      | succ index =>
          simp only [List.modify_succ_cons, List.mapM_cons, bind_eq_ok_iff, pure, Except.pure,
            Except.ok.injEq] at second
          obtain ⟨c, kept, later, changed, rfl⟩ := second
          obtain rfl := Except.ok.inj (head.symm.trans kept)
          obtain ⟨front, old, new, back, rfl, rfl, rfl, found⟩ :=
            ih (by simpa using inside) behind changed
          exact ⟨b :: front, old, new, back, rfl, rfl, rfl, found⟩

namespace Entry

theorem pointersFrom_moved (running other : Nat) (blocks : List Bytes) :
    pointersFrom other blocks =
      (pointersFrom running blocks).map (· + ((other : Int) - running)) := by
  induction blocks generalizing running other with
  | nil => rfl
  | cons block rest ih =>
      have here : (running : Int) + ((other : Int) - running) = other := by omega
      have shift : ((other + block.length : Nat) : Int) - (running + block.length : Nat) =
          (other : Int) - running := by omega
      rw [pointersFrom, pointersFrom, List.map_cons, here,
        ih (running + block.length) (other + block.length), shift]

/-- A block of another length moves the blocks behind it, by the difference of the lengths. -/
theorem pointersFrom_replaced (running : Nat) (front back : List Bytes) (old new : Bytes) :
    (∀ slot ≤ front.length, (pointersFrom running (front ++ new :: back))[slot]? =
      (pointersFrom running (front ++ old :: back))[slot]?) ∧
    ∀ slot, front.length < slot → (pointersFrom running (front ++ new :: back))[slot]? =
      (pointersFrom running (front ++ old :: back))[slot]?.map
        (· + ((new.length : Int) - old.length)) := by
  have split (block : Bytes) : pointersFrom running (front ++ block :: back) =
      pointersFrom running (front ++ [block]) ++
        pointersFrom (running + front.flatten.length + block.length) back := by
    rw [List.append_cons, pointersFrom_append, List.flatten_concat, List.length_append,
      Nat.add_assoc]
  have opening : pointersFrom running (front ++ [new]) = pointersFrom running (front ++ [old]) := by
    rw [pointersFrom_concat, pointersFrom_concat]
  have count (block : Bytes) : (pointersFrom running (front ++ [block])).length =
      front.length + 1 := by simp
  have shift : ((running + front.flatten.length + new.length : Nat) : Int) -
      (running + front.flatten.length + old.length : Nat) = (new.length : Int) - old.length := by
    omega
  rw [split new, split old, opening,
    pointersFrom_moved (running + front.flatten.length + old.length) _ back, shift]
  constructor
  · intro slot before
    rw [List.getElem?_append_left (by rw [count]; omega),
      List.getElem?_append_left (by rw [count]; omega)]
  · intro slot behind
    rw [List.getElem?_append_right (by rw [count]; omega),
      List.getElem?_append_right (by rw [count]; omega), List.getElem?_map]

end Entry

/-- The word of a slot, between the words before it and behind it. -/
theorem PointerTable.exists_word (order : ByteOrder) {offsets : List Int} {slot : Nat}
    {offset : Int} (found : offsets[slot]? = some offset) :
    ∃ front back, front.length = 4 * slot ∧
      wordBytes order offsets = front ++ (order.arrange (Width.u32.encode offset) ++ back) := by
  obtain ⟨inside, rfl⟩ := List.getElem?_eq_some_iff.mp found
  have split := wordBytes_append order (offsets.take slot) (offsets.drop slot)
  have word : wordBytes order (offsets.drop slot) =
      order.arrange (Width.u32.encode offsets[slot]) ++
        wordBytes order (offsets.drop (slot + 1)) := by
    rw [List.drop_eq_getElem_cons inside]
    exact List.flatMap_cons
  rw [List.take_append_drop, word] at split
  refine ⟨_, _, ?_, split⟩
  rw [length_wordBytes, List.length_take, Nat.min_eq_left (Nat.le_of_lt inside)]

/-- The place of an entry among the parts of a file. -/
def EntryRef.slot : EntryRef → Nat
  | player => 0
  | object index => index + 1

namespace ObjectBinary

/-- The encoded parts of a file. -/
structure Parts where
  player : Bytes
  objects : List Bytes
  audio : Bytes

def Parts.all (parts : Parts) : List Bytes :=
  parts.player :: (parts.objects ++ [parts.audio])

/-- A file that consists of a table and the encoded parts of the binary. The offsets are the places
of the parts, and the words of the table. -/
structure LaidOut (binary : ObjectBinary) (parts : Parts) (offsets : List Int) (data : Bytes) :
    Prop where
  player : binary.player.encode = .ok parts.player ∧ binary.player.LaidOut parts.player
  objects : List.Forall₂ (fun object part => object.encode = .ok part ∧ object.LaidOut part)
    binary.objects parts.objects
  audio : binary.audio.encode = .ok parts.audio
  tiled : ∃ padding, Bytes.Tiled data (PointerTable.spell .little offsets padding) offsets parts.all
  slots : ∀ (slot : Nat) (offset : Int), offsets[slot]? = some offset →
    (Reader.field .u32 .little).Reads data.toArray (4 * slot) offset (4 * slot + 4)
  table : ∃ padding stop, (PointerTable.read 0 .little PointerTable.defaultAlignment).Reads
    data.toArray 0 ⟨0, offsets, padding⟩ stop
  aligned : ∀ offset ∈ offsets, 0x10 ∣ offset

/-- Two files with the same parts, one slot aside. The parts behind that slot are moved by a number of
whole pages, the others by nothing. -/
structure Shifted (edited : Nat) (parts others : Parts) (offsets moved : List Int) : Prop where
  same : ∀ slot, slot ≠ edited → others.all[slot]? = parts.all[slot]?
  before : ∀ slot ≤ edited, moved[slot]? = offsets[slot]?
  behind : ∃ shift, 0x1000 ∣ shift ∧
    ∀ slot, edited < slot → moved[slot]? = offsets[slot]?.map (· + shift)

variable {binary : ObjectBinary} {parts others : Parts} {data : Bytes}

namespace Parts

/-- Where the parts of a file start. -/
def offsets (parts : Parts) : List Int :=
  Entry.pointersFrom (PointerTable.startOf parts.all.length) parts.all

def file (parts : Parts) : Bytes :=
  PointerTable.spell .little parts.offsets (PointerTable.leastPadding parts.all.length) ++
    parts.all.flatten

theorem length_offsets (parts : Parts) : parts.offsets.length = parts.all.length :=
  Entry.length_pointersFrom _ _

theorem tiled (parts : Parts) : Bytes.Tiled parts.file (PointerTable.spell .little parts.offsets
    (PointerTable.leastPadding parts.all.length)) parts.offsets parts.all := by
  have whole := Entry.tiled_pointersFrom (PointerTable.spell .little parts.offsets
    (PointerTable.leastPadding parts.all.length)) parts.all
  rw [PointerTable.length_spell, length_offsets] at whole
  exact whole

end Parts

/-- The parts are the encodings of the members of the binary. -/
structure Encodes (binary : ObjectBinary) (parts : Parts) : Prop where
  player : binary.player.encode = .ok parts.player
  objects : binary.objects.mapM ObjectEntry.encode = .ok parts.objects
  audio : binary.audio.encode = .ok parts.audio
  offsets : ∀ offset ∈ parts.offsets, Width.u32.holds offset = true

theorem exists_parts_of_encode (encoded : binary.encode = .ok data) :
    ∃ parts : Parts, binary.Encodes parts ∧ data = parts.file := by
  simp only [encode, bind_eq_ok_iff, pure, Except.pure, Except.ok.injEq] at encoded
  obtain ⟨player, first, objects, second, audio, third, ⟨table, body⟩, written, rfl⟩ := encoded
  obtain ⟨held, same⟩ := PointerTable.write_nil_eq_ok_iff.mp written
  rw [PointerTable.layOut_nil] at held same
  obtain ⟨rfl, rfl⟩ := Prod.mk.inj same
  refine ⟨⟨player, objects, audio⟩, ⟨first, second, third, held⟩, ?_⟩
  simp only [Bool.false_eq_true, if_false, List.append_nil]
  rfl

/-- Every part starts at a multiple of 16; only the last one need not end at one. -/
theorem Encodes.dvd_offset (encodes : binary.Encodes parts) :
    ∀ offset ∈ parts.offsets, (0x10 : Int) ∣ offset := by
  refine Entry.dvd_pointersFrom (PointerTable.startOf_dvd _) ?_
  have solid : parts.all = (parts.player :: parts.objects) ++ [parts.audio] := rfl
  rw [solid, List.dropLast_concat, List.forall_mem_cons]
  refine ⟨PlayerEntry.dvd_length_of_encode encodes.player, ?_⟩
  intro part member
  obtain ⟨object, _, encoded⟩ :=
    exists_of_mem_encoded (mapM_eq_ok_iff_forall₂.mp encodes.objects) member
  exact ObjectEntry.dvd_length_of_encode encoded

/-- No offset of a file is the closing word, which is odd. -/
theorem Encodes.isOffset (encodes : binary.Encodes parts) :
    ∀ offset ∈ parts.offsets, PointerTable.IsOffset offset := by
  intro offset member
  have aligned := encodes.dvd_offset offset member
  refine PointerTable.isOffset_iff.mpr ⟨encodes.offsets offset member, ?_⟩
  rintro rfl
  exact absurd aligned (by decide)

theorem Encodes.reads_slot (encodes : binary.Encodes parts) {slot : Nat} {offset : Int}
    (found : parts.offsets[slot]? = some offset) :
    (Reader.field .u32 .little).Reads parts.file.toArray (4 * slot) offset (4 * slot + 4) := by
  have held := encodes.offsets offset (List.mem_of_getElem? found)
  obtain ⟨front, back, before, words⟩ := PointerTable.exists_word .little found
  have carried := Buffer.Carries.whole parts.file
  rw [Parts.file, PointerTable.spell, words, List.append_assoc, List.append_assoc,
    List.append_assoc] at carried ⊢
  have word := carried.split.2.split.1
  rw [before, Nat.zero_add] at word
  exact Reader.reads_field_iff.mpr ⟨_, encodeField_eq_ok_iff.mpr ⟨held, rfl⟩, word⟩

theorem Encodes.reads_table (encodes : binary.Encodes parts) :
    ∃ padding stop, (PointerTable.read 0 .little PointerTable.defaultAlignment).Reads
      parts.file.toArray 0 ⟨0, parts.offsets, padding⟩ stop := by
  have fits : PointerTable.Fits parts.offsets (PointerTable.leastPadding parts.all.length) :=
    PointerTable.fits_pointersFrom (PointerTable.leastPadding_bounds _).1
      (fun none => nomatch none) encodes.isOffset
  exact ⟨_, _, PointerTable.reads_of_carries fits (Buffer.Carries.whole parts.file).split.1⟩

theorem Encodes.laidOut (encodes : binary.Encodes parts) :
    LaidOut binary parts parts.offsets parts.file where
  player := ⟨encodes.player, PlayerEntry.laidOut_of_encode encodes.player⟩
  objects := (mapM_eq_ok_iff_forall₂.mp encodes.objects).imp fun _ _ encoded =>
    ⟨encoded, ObjectEntry.laidOut_of_encode encoded⟩
  audio := encodes.audio
  tiled := ⟨_, parts.tiled⟩
  slots _ _ := encodes.reads_slot
  table := encodes.reads_table
  aligned := encodes.dvd_offset

/-- New actions for one entry change the part of that entry, by whole pages, and no other part. -/
theorem Encodes.setActions {entry : EntryRef} {actions : List Action} (inside : binary.Has entry)
    (first : binary.Encodes parts) (second : (binary.setActions entry actions).Encodes others) :
    ∃ front old new back, parts.all = front ++ old :: back ∧ others.all = front ++ new :: back ∧
      front.length = entry.slot ∧ (0x1000 : Int) ∣ new.length - old.length := by
  cases entry with
  | player =>
      have objects : parts.objects = others.objects :=
        Except.ok.inj (first.objects.symm.trans second.objects)
      have audio : parts.audio = others.audio :=
        Except.ok.inj (first.audio.symm.trans second.audio)
      refine ⟨[], parts.player, others.player, parts.objects ++ [parts.audio], rfl, ?_, rfl, ?_⟩
      · rw [objects, audio]
        rfl
      · exact PlayerEntry.page_dvd_of_encode first.player second.player
  | object index =>
      have player : parts.player = others.player :=
        Except.ok.inj (first.player.symm.trans second.player)
      have audio : parts.audio = others.audio :=
        Except.ok.inj (first.audio.symm.trans second.audio)
      obtain ⟨front, old, new, back, before, after, place, object, encoded, changed⟩ :=
        mapM_modify inside first.objects second.objects
      refine ⟨parts.player :: front, old, new, back ++ [parts.audio], ?_, ?_, ?_, ?_⟩
      · simp [Parts.all, before]
      · simp [Parts.all, after, player, audio]
      · simp [EntryRef.slot, place]
      · exact ObjectEntry.page_dvd_of_encode encoded changed

theorem Encodes.shifted {entry : EntryRef} {actions : List Action} (inside : binary.Has entry)
    (first : binary.Encodes parts) (second : (binary.setActions entry actions).Encodes others) :
    Shifted entry.slot parts others parts.offsets others.offsets := by
  obtain ⟨front, old, new, back, before, after, place, pages⟩ := first.setActions inside second
  have count : others.all.length = parts.all.length := by simp [before, after]
  obtain ⟨kept, moved⟩ := Entry.pointersFrom_replaced
    (PointerTable.startOf parts.all.length) front back old new
  rw [← before, ← after, place] at kept moved
  rw [Parts.offsets, Parts.offsets, count]
  refine ⟨?_, kept, _, pages, moved⟩
  intro slot apart
  rw [before, after]
  obtain below | above := Nat.lt_or_gt_of_ne apart
  · rw [List.getElem?_append_left (by omega), List.getElem?_append_left (by omega)]
  · obtain ⟨more, rfl⟩ := Nat.exists_eq_add_of_lt above
    rw [List.getElem?_append_right (by omega), List.getElem?_append_right (by omega)]
    have behind : entry.slot + more + 1 - front.length = more + 1 := by omega
    rw [behind]
    rfl

/-- Whatever can be encoded is laid out as a table and its parts. With other actions for one of its
entries it has the same other parts, and those behind the entry are moved by whole pages. -/
theorem laidOut_and_shifted_of_encode (encoded : binary.encode = .ok data) :
    ∃ parts offsets, LaidOut binary parts offsets data ∧
      ∀ (entry : EntryRef) (actions : List Action) (again : Bytes), binary.Has entry →
        (binary.setActions entry actions).encode = .ok again →
          ∃ others moved, LaidOut (binary.setActions entry actions) others moved again ∧
            Shifted entry.slot parts others offsets moved := by
  obtain ⟨parts, first, rfl⟩ := exists_parts_of_encode encoded
  refine ⟨parts, parts.offsets, first.laidOut, ?_⟩
  intro entry actions again inside changed
  obtain ⟨others, second, rfl⟩ := exists_parts_of_encode changed
  exact ⟨others, others.offsets, second.laidOut, first.shifted inside second⟩

/-- A script without actions is not well formed, but it can be encoded. -/
theorem laidOut_and_shifted_small : ∃ again,
    (small.setActions (.object 0) []).encode = .ok again ∧
      ∃ parts others offsets moved, LaidOut small parts offsets small.bytes ∧
        LaidOut (small.setActions (.object 0) []) others moved again ∧
          Shifted 1 parts others offsets moved := by
  have succeeds : (small.setActions (.object 0) []).encode.toBool = true := by decide +kernel
  obtain ⟨again, changed⟩ : ∃ again, (small.setActions (.object 0) []).encode = .ok again := by
    cases done : (small.setActions (.object 0) []).encode with
    | ok again => exact ⟨again, rfl⟩
    | error fault =>
        rw [done] at succeeds
        cases succeeds
  obtain ⟨parts, offsets, whole, edit⟩ :=
    laidOut_and_shifted_of_encode (encode_of_short small_wellFormed short_small)
  obtain ⟨others, moved, laid, shifted⟩ := edit (.object 0) [] again Nat.zero_lt_one changed
  exact ⟨again, changed, parts, others, offsets, moved, whole, laid, shifted⟩

end ObjectBinary

end FighterData
