import FighterData.Reader.Success
import Mathlib.Data.List.Forall2

/-! Records without the refusals. `Layout.holds` says which values a record takes and
`Layout.spell` which bytes stand for them, so that encoding and reading are both about the same
bytes. -/
namespace FighterData

/-- A part of an encoding that is made in one way, if it fits. -/
theorem exists_made_iff {α : Type} {fits : Prop} {made : α} {further : α → Prop} :
    (∃ a, (fits ∧ a = made) ∧ further a) ↔ fits ∧ further made := by
  constructor
  · intro found
    obtain ⟨_, ⟨held, rfl⟩, behind⟩ := found
    exact ⟨held, behind⟩
  · intro found
    exact ⟨made, ⟨found.1, rfl⟩, found.2⟩

/-- A list is encoded if each member is, to the list of their encodings. -/
theorem mapM_eq_ok_iff {ε α β : Type} {encode : α → Except ε β} {fits : α → Prop} {bytes : α → β}
    {items : List α} {encoded : List β}
    (each : ∀ a ∈ items, ∀ b, encode a = .ok b ↔ fits a ∧ b = bytes a) :
    items.mapM encode = .ok encoded ↔ (∀ a ∈ items, fits a) ∧ encoded = items.map bytes := by
  induction items generalizing encoded with
  | nil =>
      simp only [List.mapM_nil, pure, Except.pure, Except.ok.injEq, List.not_mem_nil, List.map_nil,
        false_implies, implies_true, true_and]
      exact eq_comm
  | cons a rest ih =>
      rw [List.forall_mem_cons] at each
      simp only [List.mapM_cons, bind_eq_ok_iff, each.1, ih each.2, exists_made_iff, pure,
        Except.pure, Except.ok.injEq, List.forall_mem_cons, List.map_cons]
      rw [and_assoc, @eq_comm _ encoded]

theorem mapM_eq_ok_of_forall {ε α β : Type} {encode : α → Except ε β} {bytes : α → β}
    {items : List α} (each : ∀ a ∈ items, encode a = .ok (bytes a)) :
    items.mapM encode = .ok (items.map bytes) := by
  induction items with
  | nil => rfl
  | cons a rest ih =>
      rw [List.forall_mem_cons] at each
      rw [List.mapM_cons, each.1, ih each.2]
      rfl

theorem forM_eq_ok_iff {ε α : Type} {check : α → Except ε Unit} {items : List α} :
    items.forM check = .ok () ↔ ∀ a ∈ items, check a = .ok () := by
  induction items with
  | nil => simp [pure, Except.pure]
  | cons a rest ih =>
      have step : (a :: rest).forM check = (check a >>= fun _ => rest.forM check) := rfl
      rw [step, bind_eq_ok_iff, List.forall_mem_cons]
      constructor
      · intro found
        obtain ⟨_, first, behind⟩ := found
        exact ⟨first, ih.mp behind⟩
      · intro found
        exact ⟨(), found.1, ih.mpr found.2⟩

/-- Two steps fail together if the first one does, or the second on its value. -/
theorem bind_eq_error_iff {ε α β : Type} {first : Except ε α} {next : α → Except ε β} {fault : ε} :
    (first >>= next) = .error fault ↔
      first = .error fault ∨ ∃ a, first = .ok a ∧ next a = .error fault := by
  cases first with
  | error other => simp [bind, Except.bind]
  | ok a => simp [bind, Except.bind]

/-- Naming the causes of failure keeps each failure. -/
theorem mapError_eq_error_iff {ε δ α : Type} {result : Except ε α} {name : ε → δ} {named : δ} :
    result.mapError name = .error named ↔ ∃ cause, result = .error cause ∧ named = name cause := by
  cases result with
  | error cause => simp [Except.mapError, eq_comm]
  | ok a => simp [Except.mapError]

/-- A list is encoded to the encodings of its members, in order. -/
theorem mapM_eq_ok_iff_forall₂ {ε α β : Type} {encode : α → Except ε β} {items : List α}
    {encoded : List β} :
    items.mapM encode = .ok encoded ↔
      List.Forall₂ (fun a b => encode a = .ok b) items encoded := by
  induction items generalizing encoded with
  | nil => simp [pure, Except.pure, eq_comm]
  | cons a rest ih =>
      rw [List.mapM_cons, List.forall₂_cons_left_iff]
      simp only [bind_eq_ok_iff, pure, Except.pure, Except.ok.injEq, ih]
      constructor
      · rintro ⟨b, first, others, behind, rfl⟩
        exact ⟨b, others, first, behind, rfl⟩
      · rintro ⟨b, others, first, behind, rfl⟩
        exact ⟨b, first, others, behind, rfl⟩

theorem exists_of_mem_encoded {α β : Type} {related : α → β → Prop} {items : List α}
    {encoded : List β} (each : List.Forall₂ related items encoded) {b : β} (member : b ∈ encoded) :
    ∃ a ∈ items, related a b := by
  induction each with
  | nil => cases member
  | cons first _ ih =>
      obtain rfl | later := List.mem_cons.mp member
      · exact ⟨_, List.mem_cons_self, first⟩
      · obtain ⟨a, inside, found⟩ := ih later
        exact ⟨a, List.mem_cons_of_mem _ inside, found⟩

/-- What fails for a list fails for a member of it. -/
theorem exists_of_mapM_error {ε α β : Type} {encode : α → Except ε β} {items : List α} {fault : ε}
    (failed : items.mapM encode = .error fault) : ∃ a ∈ items, encode a = .error fault := by
  induction items with
  | nil => cases failed
  | cons a rest ih =>
      rw [List.mapM_cons, bind_eq_error_iff] at failed
      obtain now | ⟨b, _, later⟩ := failed
      · exact ⟨a, by simp, now⟩
      · obtain later | ⟨_, _, none⟩ := bind_eq_error_iff.mp later
        · obtain ⟨other, member, found⟩ := ih later
          exact ⟨other, by simp [member], found⟩
        · cases none

/-- What succeeds for a list succeeds for each member of it. -/
theorem exists_ok_of_mapM_ok {ε α β : Type} {encode : α → Except ε β} {items : List α}
    {encoded : List β} (mapped : items.mapM encode = .ok encoded) :
    ∀ a ∈ items, ∃ b, encode a = .ok b := by
  induction items generalizing encoded with
  | nil => simp
  | cons a rest ih =>
      rw [List.mapM_cons] at mapped
      obtain ⟨b, first, behind⟩ := bind_eq_ok_iff.mp mapped
      obtain ⟨others, later, _⟩ := bind_eq_ok_iff.mp behind
      exact List.forall_mem_cons.mpr ⟨⟨b, first⟩, ih later⟩

theorem exists_of_forM_error {ε α : Type} {check : α → Except ε Unit} {items : List α} {fault : ε}
    (failed : items.forM check = .error fault) : ∃ a ∈ items, check a = .error fault := by
  induction items with
  | nil => cases failed
  | cons a rest ih =>
      obtain now | ⟨_, _, later⟩ := bind_eq_error_iff.mp failed
      · exact ⟨a, by simp, now⟩
      · obtain ⟨other, member, found⟩ := ih later
        exact ⟨other, by simp [member], found⟩

theorem Width.holds_u32_iff {value : Int} :
    Width.u32.holds value = true ↔ ∃ number : Nat, value = number ∧ number < 0x100000000 := by
  have range : Width.u32.holds value = true ↔ 0 ≤ value ∧ value < 0x100000000 := by
    simp [Width.holds, Width.lowest, Width.isSigned, Width.span_eq]
  rw [range]
  constructor
  · intro bounds
    exact ⟨value.toNat, by omega, by omega⟩
  · intro found
    obtain ⟨number, rfl, bound⟩ := found
    omega

namespace Layout

/-- One value for every field, and each within the range of its field. -/
def holds : Layout → List Int → Bool
  | [], [] => true
  | width :: layout, value :: values => width.holds value && holds layout values
  | _, _ => false

/-- The bytes of the fields, one after the other. -/
def spell : Layout → List Int → Bytes
  | width :: layout, value :: values => width.encode value ++ spell layout values
  | _, _ => []

theorem length_of_holds {layout : Layout} {values : List Int}
    (fits : layout.holds values = true) : values.length = layout.length := by
  induction layout generalizing values with
  | nil =>
      cases values with
      | nil => rfl
      | cons value rest => simp [holds] at fits
  | cons width layout ih =>
      cases values with
      | nil => simp [holds] at fits
      | cons value rest =>
          have behind : holds layout rest = true := by
            simp only [holds, Bool.and_eq_true] at fits
            exact fits.2
          simp [ih behind]

theorem length_spell_of_exact {layout : Layout} {values : List Int}
    (exact : values.length = layout.length) : (layout.spell values).length = layout.size := by
  induction layout generalizing values with
  | nil => simp [spell, size]
  | cons width layout ih =>
      cases values with
      | nil => cases exact
      | cons value rest =>
          have behind : rest.length = layout.length := by simpa using exact
          simp [spell, ih behind, size]

theorem length_spell {layout : Layout} {values : List Int}
    (fits : layout.holds values = true) : (layout.spell values).length = layout.size :=
  length_spell_of_exact (length_of_holds fits)

theorem encode_eq_ok_iff {layout : Layout} {values : List Int} {data : Bytes} :
    layout.encode values = .ok data ↔ layout.holds values = true ∧ data = layout.spell values := by
  induction layout generalizing values data with
  | nil =>
      rw [encode_nil_eq_ok_iff]
      cases values <;> simp [holds, spell]
  | cons width layout ih =>
      rw [encode_cons_eq_ok_iff]
      cases values with
      | nil => simp [holds]
      | cons value rest =>
          simp only [holds, spell, Bool.and_eq_true]
          constructor
          · intro found
            obtain ⟨_, _, same, field, first, others, behind, rfl⟩ := found
            obtain ⟨rfl, rfl⟩ := List.cons.inj same
            have head := encodeField_eq_ok_iff.mp first
            have tail := ih.mp behind
            refine ⟨⟨head.1, tail.1⟩, ?_⟩
            rw [head.2, tail.2]
            rfl
          · intro fits
            obtain ⟨⟨head, tail⟩, rfl⟩ := fits
            exact ⟨value, rest, rfl, _, encodeField_eq_ok_iff.mpr ⟨head, rfl⟩, _,
              ih.mpr ⟨tail, rfl⟩, rfl⟩

theorem encode_of_holds {layout : Layout} {values : List Int}
    (fits : layout.holds values = true) : layout.encode values = .ok (layout.spell values) :=
  encode_eq_ok_iff.mpr ⟨fits, rfl⟩

theorem holds_replicate {width : Width} {values : List Int}
    (each : ∀ value ∈ values, width.holds value = true) :
    holds (List.replicate values.length width) values = true := by
  induction values with
  | nil => rfl
  | cons value rest ih =>
      have head := each value (by simp)
      have tail := ih fun other member => each other (by simp [member])
      simp [List.replicate_succ, holds, head, tail]

theorem holds_of_mem_replicate {width : Width} {count : Nat} {values : List Int}
    (fits : holds (List.replicate count width) values = true) :
    ∀ value ∈ values, width.holds value = true := by
  induction count generalizing values with
  | zero =>
      have none : values = [] := List.eq_nil_of_length_eq_zero (length_of_holds fits)
      simp [none]
  | succ count ih =>
      cases values with
      | nil => simp
      | cons value rest =>
          simp only [List.replicate_succ, holds, Bool.and_eq_true] at fits
          intro other member
          cases List.mem_cons.mp member with
          | inl same => rw [same]; exact fits.1
          | inr deeper => exact ih fits.2 other deeper

theorem holds_append {front back : Layout} {first second : List Int}
    (exact : first.length = front.length) :
    holds (front ++ back) (first ++ second) = (front.holds first && back.holds second) := by
  induction front generalizing first with
  | nil =>
      obtain rfl := List.eq_nil_of_length_eq_zero exact
      simp [holds]
  | cons width front ih =>
      cases first with
      | nil => cases exact
      | cons value first =>
          simp only [List.cons_append, holds, ih (Nat.succ.inj exact), Bool.and_assoc]

end Layout

/-- A record is read where the buffer carries its bytes, and nowhere else. -/
theorem Reader.reads_fields_iff_spell {layout : Layout} {values : List Int} {buffer : Buffer}
    {start stop : Nat} :
    (fields layout).Reads buffer start values stop ↔
      layout.holds values = true ∧ buffer.Carries start stop (layout.spell values) := by
  rw [reads_fields_iff]
  constructor
  · intro found
    obtain ⟨data, encoded, carried⟩ := found
    obtain ⟨fits, rfl⟩ := Layout.encode_eq_ok_iff.mp encoded
    exact ⟨fits, carried⟩
  · intro found
    exact ⟨_, Layout.encode_of_holds found.1, found.2⟩

end FighterData
