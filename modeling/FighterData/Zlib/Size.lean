import FighterData.Zlib

/-! Compression adds little: a tight stream is only used if it is short enough, and a stream of stored
blocks always is. -/
namespace FighterData

namespace Deflate

theorem length_storedFrom (full : Nat) (data : Bytes) :
    (storedFrom full data).length = data.length + 5 * (full + 1) := by
  induction full generalizing data with
  | zero =>
      simp only [storedFrom, storedHeader, List.length_append, List.length_cons, Bytes.length_ofNat]
      omega
  | succ full ih =>
      simp only [storedFrom, storedHeader, List.length_append, List.length_cons,
        Bytes.length_ofNat, ih, List.length_take, List.length_drop]
      omega

end Deflate

namespace Zlib

theorem length_store_le (data : Bytes) : (store data).length ≤ bound data.length := by
  simp only [store, framed, Deflate.stored, List.cons_append, List.length_cons, List.length_append,
    List.length_reverse, Bytes.length_ofNat, Deflate.length_storedFrom, bound,
    Deflate.largestBlock]
  omega

theorem length_compress_le (data : Bytes) : (compress data).length ≤ bound data.length := by
  simp only [compress]
  split
  next kept => exact kept.2
  next => exact length_store_le data

end Zlib

end FighterData
