import FighterData.Image.Png
import FighterData.Proofs.Image.Pixels
import FighterData.Zlib.Lossless
import FighterData.Zlib.Size

/-! Image files that are written and read again. Chunks are found by the sizes before them, the rows
are stored and unfiltered to what they were, and so an image with four samples a pixel is opened as
it was. Whatever is opened has all of its pixels. -/
namespace FighterData.Png

theorem length_word (value : Nat) : (word value).length = 4 := by
  rw [word, List.length_reverse, Bytes.length_ofNat]

theorem readWord_word {value : Nat} (fits : value < 0x100000000) (rest : Bytes) :
    readWord (word value ++ rest) = value := by
  rw [readWord, List.take_left' (length_word value), word, List.reverse_reverse, Bytes.toNat_ofNat]
  exact Nat.mod_eq_of_lt fits

theorem crc_lt (data : Bytes) : crc data < 0x100000000 :=
  UInt32.toNat_lt _

section Chunks

variable {chunk : Chunk}

theorem length_encode (type : chunk.type.length = 4) :
    chunk.encode.length = chunk.contents.length + 12 := by
  simp only [Chunk.encode, List.length_append, length_word, type]
  omega

/-- What is read of a chunk that stands before the rest. -/
theorem readChunks_succ (type : chunk.type.length = 4)
    (fits : chunk.contents.length < 0x100000000) (budget : Nat) (rest : Bytes) :
    readChunks (budget + 1) (chunk.encode ++ rest) =
      if chunk.type = endType then some [] else (readChunks budget rest).map (chunk :: ·) := by
  have size : readWord (chunk.encode ++ rest) = chunk.contents.length := by
    simp only [Chunk.encode, List.append_assoc]
    exact readWord_word fits _
  have kind : Bytes.slice (chunk.encode ++ rest) 4 8 = chunk.type := by
    simp only [Chunk.encode, List.append_assoc]
    exact Bytes.slice_append (length_word _) (by rw [type])
  have contents : Bytes.slice (chunk.encode ++ rest) 8 (8 + chunk.contents.length) =
      chunk.contents := by
    simp only [Chunk.encode, List.append_assoc]
    rw [← List.append_assoc]
    exact Bytes.slice_append (by rw [List.length_append, length_word, type]) rfl
  have long : ¬ (chunk.encode ++ rest).length < chunk.contents.length + 12 := by
    rw [List.length_append, length_encode type]
    omega
  have check : readWord ((chunk.encode ++ rest).drop (8 + chunk.contents.length)) =
      crc (chunk.type ++ chunk.contents) := by
    have front : (word chunk.contents.length ++ chunk.type ++ chunk.contents).length =
        8 + chunk.contents.length := by
      simp only [List.length_append, length_word, type]
    rw [Chunk.encode, List.append_assoc, List.drop_left' front]
    exact readWord_word (crc_lt _) rest
  have behind : (chunk.encode ++ rest).drop (chunk.contents.length + 12) = rest :=
    List.drop_left' (length_encode type)
  simp only [readChunks, size, kind, contents, if_neg long, check, ne_eq, not_true, if_false,
    behind]

end Chunks

section Rows

variable {header : Header} {data out : Bytes}

/-- The filter of number zero leaves a row as it is. -/
theorem unfilter_zero (reach : Nat) (above row : Array UInt8) (data : Bytes) :
    unfilter 0 reach above row data = row ++ data.toArray := by
  induction data generalizing row with
  | nil => simp [unfilter]
  | cons byte rest ih =>
      rw [unfilter, ih]
      simp [predicted]

theorem size_unfilter (filter reach : Nat) (above row : Array UInt8) (data : Bytes) :
    (unfilter filter reach above row data).size = row.size + data.length := by
  induction data generalizing row with
  | nil => simp [unfilter]
  | cons byte rest ih =>
      rw [unfilter, ih, Array.size_push, List.length_cons]
      omega

theorem readRows_plain {size count : Nat} (same : header.rowSize = size) (above : Array UInt8)
    (exact : data.length = size * count) :
    readRows header above count ((Image.rows size count data).flatMap (0 :: ·)) = some data := by
  induction count generalizing data above with
  | zero =>
      obtain rfl := List.eq_nil_of_length_eq_zero exact
      rfl
  | succ count ih =>
      rw [Nat.mul_succ] at exact
      have row : (data.take size).length = size := by
        rw [List.length_take]
        omega
      have rest : (data.drop size).length = size * count := by
        rw [List.length_drop]
        omega
      have zero : ¬ 4 < UInt8.toNat 0 := by decide
      have kept : unfilter (UInt8.toNat 0) header.reach above #[] (data.take size) =
          (data.take size).toArray :=
        (unfilter_zero _ _ _ _).trans Array.empty_append
      rw [Image.rows, List.flatMap_cons, List.cons_append, readRows, same, List.take_left' row,
        List.drop_left' row, row, kept]
      simp only [Nat.lt_irrefl, zero, decide_false, Bool.or_self, Bool.false_eq_true, if_false,
        ih (data.take size).toArray rest, Option.map_some, List.take_append_drop]

/-- The rows that are read have the size that the header states. -/
theorem length_readRows {count : Nat} {above : Array UInt8}
    (read : readRows header above count data = some out) :
    out.length = header.rowSize * count := by
  induction count generalizing data above out with
  | zero =>
      obtain rfl := Option.some.inj read
      rfl
  | succ count ih =>
      cases data with
      | nil => cases read
      | cons filter data =>
          simp only [readRows] at read
          split at read
          · cases read
          · rename_i full
            obtain ⟨rest, behind, rfl⟩ := Option.map_eq_some_iff.mp read
            simp only [Bool.or_eq_true, decide_eq_true_eq, not_or] at full
            have row := size_unfilter filter.toNat header.reach above #[] (data.take header.rowSize)
            rw [List.length_take, Array.size_empty] at row
            have least : header.rowSize ≤ data.length := by
              have taken := full.1
              rw [List.length_take] at taken
              omega
            rw [List.length_append, Array.length_toList, row, ih behind, Nat.mul_succ]
            omega

end Rows

section Opening

variable {image : Image} {header : Header} {palette data contents : Bytes}

/-- The header of an image with four samples a pixel. -/
theorem readHeader?_headerOf (mode : image.mode = .rgba) (wide : image.width < 0x100000000)
    (high : image.height < 0x100000000) :
    readHeader? (headerOf image) = some ⟨image.width, image.height, 8, 6, 4⟩ := by
  have shape : headerOf image = word image.width ++ (word image.height ++ [8, 6, 0, 0, 0]) := by
    rw [headerOf, depthOf, mode, List.append_assoc]
    rfl
  have first : readWord (headerOf image) = image.width := by
    rw [shape]
    exact readWord_word wide _
  have behind : (headerOf image).drop 4 = word image.height ++ [8, 6, 0, 0, 0] := by
    rw [shape]
    exact List.drop_left' (length_word _)
  have second : readWord ((headerOf image).drop 4) = image.height := by
    rw [behind]
    exact readWord_word high _
  have last : (headerOf image).drop 8 = [8, 6, 0, 0, 0] := by
    rw [shape, ← List.append_assoc]
    exact List.drop_left' (by rw [List.length_append, length_word, length_word])
  rw [readHeader?, last, first, second]
  rfl

theorem plainRows_eq (mode : image.mode = .rgba) :
    plainRows image = (Image.rows (4 * image.width) image.height image.data).flatMap (0 :: ·) := by
  have plain (row : Bytes) : rowOf image row = row := by simp [rowOf, mode]
  simp only [plainRows, mode, ImageMode.rowSize, plain]

/-- A file of an image with four samples a pixel starts with the signature, and behind it are the chunk
of the header and that of the rows. -/
theorem readChunks_encode (mode : image.mode = .rgba)
    (short : (Zlib.store (plainRows image)).length < 0x100000000) :
    signature.isPrefixOf (encode image) = true ∧
      readChunks (encode image).length ((encode image).drop signature.length) =
        some [⟨headerType, headerOf image⟩, ⟨dataType, Zlib.store (plainRows image)⟩] := by
  let first : Chunk := ⟨headerType, headerOf image⟩
  let second : Chunk := ⟨dataType, Zlib.store (plainRows image)⟩
  let last : Chunk := ⟨endType, []⟩
  have file : encode image =
      signature ++ (first.encode ++ (second.encode ++ (last.encode ++ []))) := by
    simp [encode, mode, first, second, last]
  have behind : (encode image).drop signature.length =
      first.encode ++ (second.encode ++ (last.encode ++ [])) := by
    rw [file]
    exact List.drop_left
  have enough : (encode image).length = (encode image).length - 3 + 1 + 1 + 1 := by
    have sizes : 3 ≤ (encode image).length := by
      rw [file, List.length_append]
      exact Nat.le_add_right_of_le (by decide)
    omega
  have small : (headerOf image).length < 0x100000000 := by
    simp [headerOf, length_word]
  constructor
  · rw [file]
    exact List.isPrefixOf_iff_prefix.mpr (List.prefix_append _ _)
  · rw [behind, enough, readChunks_succ rfl small, if_neg (by decide : headerType ≠ endType),
      readChunks_succ rfl short, if_neg (by decide : dataType ≠ endType),
      readChunks_succ rfl (by decide), if_pos rfl]
    rfl

/-- An image with four samples a pixel is opened as it was written, but for a palette, which it has no
use for. -/
theorem decode?_encode (mode : image.mode = .rgba) (wide : image.width < 0x100000000)
    (high : image.height < 0x100000000)
    (whole : image.data.length = 4 * image.width * image.height)
    (short : (Zlib.store (plainRows image)).length < 0x100000000) :
    decode? (encode image) = some { image with palette := [] } := by
  obtain ⟨marked, chunks⟩ := readChunks_encode mode short
  have others : headerType ≠ dataType := by decide
  have unpacked : Zlib.decompress (contentsOf [⟨headerType, headerOf image⟩,
      ⟨dataType, Zlib.store (plainRows image)⟩] dataType) = .ok (plainRows image) := by
    simp only [contentsOf, List.filter_cons, others, decide_false, decide_true, List.filter_nil,
      List.flatMap_cons, List.flatMap_nil, List.append_nil, if_true, Bool.false_eq_true, if_false]
    exact Zlib.decompress_store _
  have row : Header.rowSize ⟨image.width, image.height, 8, 6, 4⟩ = 4 * image.width := by
    show (image.width * 4 * 8 + 7) / 8 = 4 * image.width
    omega
  have rows := readRows_plain row #[] whole
  rw [← plainRows_eq mode] at rows
  have head := readHeader?_headerOf mode wide high
  simp only [decode?, marked, chunks, Bool.not_true, Bool.false_eq_true, if_false, bind,
    Option.bind, List.head?_cons, unpacked, Except.toOption, ne_eq, not_true, head, rows]
  rw [mode]
  rfl

/-- A file that is opened has a header with the samples of its kind of color, and rows that give the
image its data. -/
theorem exists_of_decode? {file : Bytes} (opened : decode? file = some image) :
    ∃ header raw data palette, sampleCount? header.color = some header.samples ∧
      readRows header #[] header.height raw = some data ∧
      imageOf? header palette data = some image := by
  simp only [decode?] at opened
  split at opened
  · cases opened
  · simp only [Option.bind_eq_bind, Option.bind_eq_some_iff] at opened
    obtain ⟨chunks, _, first, _, opened⟩ := opened
    split at opened
    · cases opened
    · simp only [Option.bind_eq_some_iff] at opened
      obtain ⟨header, described, raw, _, data, rows, shown⟩ := opened
      simp only [readHeader?] at described
      split at described
      · obtain ⟨samples, counted, rfl⟩ := Option.map_eq_some_iff.mp described
        exact ⟨_, raw, data, _, counted, rows, shown⟩
      · cases described

/-- Samples that are spread fill the places of every row. -/
theorem length_spreadRows (full : data.length = header.rowSize * header.height)
    (enough : header.width ≤ header.rowSize * (8 / header.depth)) :
    (spreadRows header data).length = header.width * header.height := by
  have eighth (byte : UInt8) : (spreadByte header.depth byte).length = 8 / header.depth := by
    simp [spreadByte]
  have each : ∀ row ∈ Image.rows header.rowSize header.height data,
      ((row.flatMap (spreadByte header.depth)).take header.width).length = header.width := by
    intro row member
    simp only [List.length_take, List.length_flatMap, eighth, List.map_const',
      List.sum_replicate_nat, Image.length_of_mem_rows full row member]
    omega
  rw [spreadRows, List.length_flatMap, List.map_congr_left each, List.map_const',
    Image.length_rows, List.sum_replicate_nat, Nat.mul_comm]

/-- Samples of eight bits are taken as they are, a bilevel image keeps its bits, and all others are
spread. -/
theorem length_of_imageOf? (samples : sampleCount? header.color = some header.samples)
    (full : data.length = header.rowSize * header.height)
    (shown : imageOf? header palette data = some image) :
    image.data.length = image.mode.rowSize image.width * image.height := by
  have spread (enough : header.width ≤ header.rowSize * (8 / header.depth)) :=
    length_spreadRows full enough
  simp only [imageOf?] at shown
  split at shown
  case h_12 => cases shown
  all_goals
    rename_i kind bits
    obtain rfl := Option.some.inj shown
    rw [kind] at samples
    have row : header.rowSize = (header.width * header.samples * header.depth + 7) / 8 := rfl
    rw [← Option.some.inj samples, bits] at row
    rw [bits] at spread
    simp only [ImageMode.rowSize, List.length_map]
  case h_1 | h_4 | h_5 | h_6 | h_10 | h_11 =>
    rw [full, row]
    congr 1
    omega
  all_goals
    exact spread (by omega)

theorem length_pixels_of_decode? {file : Bytes} (opened : decode? file = some image) :
    image.pixels.length = image.width * image.height := by
  obtain ⟨header, raw, data, palette, samples, rows, shown⟩ := exists_of_decode? opened
  exact Image.length_pixels (length_of_imageOf? samples (length_readRows rows) shown)

theorem length_plainRows (mode : image.mode = .rgba)
    (whole : image.data.length = 4 * image.width * image.height) :
    (plainRows image).length = (4 * image.width + 1) * image.height := by
  have each : ∀ row ∈ Image.rows (4 * image.width) image.height image.data,
      ((0 : UInt8) :: row).length = 4 * image.width + 1 := by
    intro row member
    rw [List.length_cons, Image.length_of_mem_rows whole row member]
  rw [plainRows_eq mode, List.length_flatMap, List.map_congr_left each, List.map_const',
    Image.length_rows, List.sum_replicate_nat, Nat.mul_comm]

end Opening

theorem files_lawful : files.Lawful where
  whole _ _ := length_pixels_of_decode?
  lossless image picture := by
    have width : image.width = 16 := picture.width
    have height : image.height = 16 := picture.height
    have whole : image.data.length = 4 * image.width * image.height := by
      rw [width, height]
      exact picture.whole
    have short : (Zlib.store (plainRows image)).length < 0x100000000 := by
      have size := length_plainRows picture.mode whole
      have bound := Zlib.length_store_le (plainRows image)
      rw [size, width, height] at bound
      exact Nat.lt_of_le_of_lt bound (by decide)
    refine ⟨_, decode?_encode picture.mode (by omega) (by omega) whole short, rfl, rfl, ?_⟩
    rw [Image.pixels_eq_quads picture.mode whole]
    exact Image.pixels_eq_quads picture.mode whole

end FighterData.Png
