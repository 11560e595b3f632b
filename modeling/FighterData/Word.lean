import FighterData.Fault

/-! Fixed-width integers in a record. A field holds any integer until the record is encoded, and a
value outside the range of its width is refused then, never cut. -/
namespace FighterData

inductive ByteOrder where
  | little
  | big
deriving DecidableEq, Repr

inductive Width where
  | u8
  | u16
  | i16
  | u32
deriving DecidableEq, Repr

namespace Width

def size : Width → Nat
  | u8 => 1
  | u16 => 2
  | i16 => 2
  | u32 => 4

/-- The number of values of the width. -/
def span (width : Width) : Nat :=
  Bytes.span width.size

theorem span_eq (width : Width) :
    width.span = match width with
      | u8 => 256
      | u16 => 65536
      | i16 => 65536
      | u32 => 4294967296 := by
  cases width <;> rfl

def isSigned (width : Width) : Bool :=
  width = i16

def lowest (width : Width) : Int :=
  if width.isSigned then -(width.span / 2 : Nat) else 0

def holds (width : Width) (value : Int) : Bool :=
  width.lowest ≤ value && value < width.lowest + width.span

/-- Two's complement: the value that shares its residue with the bytes and that the width holds. -/
def decode (width : Width) (bytes : Bytes) : Int :=
  let raw := bytes.toNat
  if width.isSigned && width.span / 2 ≤ raw then (raw : Int) - width.span else raw

def encode (width : Width) (value : Int) : Bytes :=
  Bytes.ofNat width.size (value % width.span).toNat

@[simp] theorem length_encode (width : Width) (value : Int) :
    (width.encode value).length = width.size :=
  Bytes.length_ofNat _ _

theorem decode_encode {width : Width} {value : Int} (fits : width.holds value = true) :
    width.decode (width.encode value) = value := by
  have raw : Bytes.toNat (width.encode value) = (value % width.span).toNat := by
    rw [encode, Bytes.toNat_ofNat]
    apply Nat.mod_eq_of_lt
    show (value % width.span).toNat < width.span
    cases width <;> simp only [span_eq] <;> omega
  simp only [decode, raw]
  simp only [holds, lowest, span_eq, Bool.and_eq_true, decide_eq_true_eq] at fits ⊢
  cases width <;> simp [isSigned] at fits ⊢ <;> (try split) <;> omega

theorem toNat_lt_span {width : Width} {bytes : Bytes} (exact : bytes.length = width.size) :
    bytes.toNat < width.span := by
  have bound := Bytes.toNat_lt bytes
  rwa [exact] at bound

theorem encode_decode {width : Width} {bytes : Bytes} (exact : bytes.length = width.size) :
    width.encode (width.decode bytes) = bytes := by
  have bound := toNat_lt_span exact
  have residue : (width.decode bytes % width.span).toNat = bytes.toNat := by
    simp only [decode, span_eq] at bound ⊢
    cases width <;> simp [isSigned] at bound ⊢ <;> (try split) <;> omega
  rw [encode, residue, ← exact]
  exact Bytes.ofNat_toNat bytes

theorem holds_decode {width : Width} {bytes : Bytes} (exact : bytes.length = width.size) :
    width.holds (width.decode bytes) = true := by
  have bound := toNat_lt_span exact
  simp only [holds, lowest, decode, span_eq, Bool.and_eq_true, decide_eq_true_eq] at bound ⊢
  cases width <;> simp [isSigned] at bound ⊢ <;> (try split) <;> omega

end Width

/-- The order of the bytes of one value in the file. -/
def ByteOrder.arrange : ByteOrder → Bytes → Bytes
  | little, bytes => bytes
  | big, bytes => bytes.reverse

@[simp] theorem ByteOrder.length_arrange (order : ByteOrder) (bytes : Bytes) :
    (order.arrange bytes).length = bytes.length := by
  cases order <;> simp [arrange]

theorem ByteOrder.arrange_arrange (order : ByteOrder) (bytes : Bytes) :
    order.arrange (order.arrange bytes) = bytes := by
  cases order <;> simp [arrange]

def encodeField (order : ByteOrder) (width : Width) (value : Int) : Except Fault Bytes :=
  if width.holds value then .ok (order.arrange (width.encode value)) else .error .fieldRange

theorem encodeField_eq_ok_iff {order : ByteOrder} {width : Width} {value : Int} {data : Bytes} :
    encodeField order width value = .ok data ↔
      width.holds value = true ∧ data = order.arrange (width.encode value) := by
  by_cases fits : width.holds value = true
  · simp only [encodeField, fits, if_true, Except.ok.injEq, true_and]
    exact eq_comm
  · simp [encodeField, fits]

theorem decode_of_encodeField {order : ByteOrder} {width : Width} {value : Int} {data : Bytes}
    (encoded : encodeField order width value = .ok data) :
    width.decode (order.arrange data) = value := by
  obtain ⟨fits, rfl⟩ := encodeField_eq_ok_iff.mp encoded
  rw [ByteOrder.arrange_arrange, Width.decode_encode fits]

theorem encodeField_decode (order : ByteOrder) {width : Width} {data : Bytes}
    (exact : data.length = width.size) :
    encodeField order width (width.decode (order.arrange data)) = .ok data := by
  have arranged : (order.arrange data).length = width.size := by simpa using exact
  refine encodeField_eq_ok_iff.mpr ⟨Width.holds_decode arranged, ?_⟩
  rw [Width.encode_decode arranged, ByteOrder.arrange_arrange]

theorem length_of_encodeField {order : ByteOrder} {width : Width} {value : Int} {data : Bytes}
    (encoded : encodeField order width value = .ok data) : data.length = width.size := by
  obtain ⟨_, rfl⟩ := encodeField_eq_ok_iff.mp encoded
  rw [ByteOrder.length_arrange, Width.length_encode]

/-- The widths of a record's fields, in file order. -/
abbrev Layout := List Width

namespace Layout

def size : Layout → Nat
  | [] => 0
  | width :: rest => width.size + size rest

/-- The values of consecutive little-endian fields. -/
def decode : Layout → Bytes → List Int
  | [], _ => []
  | width :: rest, bytes => width.decode (bytes.take width.size) :: decode rest (bytes.drop width.size)

@[simp] theorem length_decode (layout : Layout) (bytes : Bytes) :
    (layout.decode bytes).length = layout.length := by
  induction layout generalizing bytes with
  | nil => rfl
  | cons width rest ih => simp [decode, ih]

def encodeValues : Layout → List Int → Except Fault Bytes
  | width :: rest, value :: values => do
      let field ← encodeField .little width value
      let others ← encodeValues rest values
      return field ++ others
  | _, _ => .ok []

/-- A record takes exactly one value for each field; the count is checked before any range. -/
def encode (layout : Layout) (values : List Int) : Except Fault Bytes :=
  if values.length = layout.length then layout.encodeValues values
  else .error (.fieldCount layout.length values.length)

theorem encode_nil_eq_ok_iff {values : List Int} {data : Bytes} :
    encode [] values = .ok data ↔ values = [] ∧ data = [] := by
  cases values with
  | nil => simp [encode, encodeValues, eq_comm]
  | cons value rest => simp [encode]

theorem encode_cons_eq_ok_iff {width : Width} {layout : Layout} {values : List Int}
    {data : Bytes} :
    encode (width :: layout) values = .ok data ↔
      ∃ value rest, values = value :: rest ∧
        ∃ field, encodeField .little width value = .ok field ∧
          ∃ others, encode layout rest = .ok others ∧ data = field ++ others := by
  cases values with
  | nil => simp [encode]
  | cons value rest =>
      by_cases exact : rest.length = layout.length
      · simp only [encode, encodeValues, List.length_cons, exact, if_true, bind_eq_ok_iff, pure,
          Except.pure, Except.ok.injEq, List.cons.injEq]
        constructor
        · rintro ⟨field, first, others, behind, rfl⟩
          exact ⟨value, rest, ⟨rfl, rfl⟩, field, first, others, (if_pos exact).trans behind, rfl⟩
        · rintro ⟨_, _, ⟨rfl, rfl⟩, field, first, others, behind, rfl⟩
          exact ⟨field, first, others, (if_pos exact).symm.trans behind, rfl⟩
      · simp [encode, exact]

theorem length_of_encode {layout : Layout} {values : List Int} {data : Bytes}
    (encoded : layout.encode values = .ok data) : data.length = layout.size := by
  induction layout generalizing values data with
  | nil =>
      obtain ⟨_, rfl⟩ := encode_nil_eq_ok_iff.mp encoded
      rfl
  | cons width layout ih =>
      obtain ⟨value, rest, rfl, field, first, others, behind, rfl⟩ :=
        encode_cons_eq_ok_iff.mp encoded
      simp [size, length_of_encodeField first, ih behind]

theorem decode_of_encode {layout : Layout} {values : List Int} {data : Bytes}
    (encoded : layout.encode values = .ok data) : layout.decode data = values := by
  induction layout generalizing values data with
  | nil =>
      obtain ⟨rfl, rfl⟩ := encode_nil_eq_ok_iff.mp encoded
      rfl
  | cons width layout ih =>
      obtain ⟨value, rest, rfl, field, first, others, behind, rfl⟩ :=
        encode_cons_eq_ok_iff.mp encoded
      have length := length_of_encodeField first
      have head : width.decode field = value := decode_of_encodeField first
      simp [decode, List.take_left' length, List.drop_left' length, head, ih behind]

theorem encode_decode {layout : Layout} {data : Bytes} (exact : data.length = layout.size) :
    layout.encode (layout.decode data) = .ok data := by
  induction layout generalizing data with
  | nil =>
      obtain rfl := List.eq_nil_of_length_eq_zero exact
      rfl
  | cons width layout ih =>
      have total : data.length = width.size + Layout.size layout := by simpa [size] using exact
      have first : encodeField .little width (width.decode (data.take width.size))
          = .ok (data.take width.size) :=
        encodeField_decode .little (by simp; omega)
      have behind : encode layout (decode layout (data.drop width.size))
          = .ok (data.drop width.size) := ih (by simp; omega)
      exact encode_cons_eq_ok_iff.mpr
        ⟨_, _, rfl, _, first, _, behind, (List.take_append_drop width.size data).symm⟩

end Layout

end FighterData
