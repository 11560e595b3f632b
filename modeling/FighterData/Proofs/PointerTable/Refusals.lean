import FighterData.EntryArray
import FighterData.Proofs.Refusals

/-! How tables, and the arrays behind them, are refused. A slot that the table has is never missing,
so what remains are faults of the format. -/
namespace FighterData

namespace PointerTable

variable {buffer : Buffer} {table : PointerTable} {slot : Nat} {stop : Int} {fault : Fault}

theorem isFormat_of_resolve (inside : slot < table.offsets.length)
    (refused : table.resolve slot stop = .error fault) : fault.IsFormat := by
  have held : table.offsets[slot]? = some table.offsets[slot] := List.getElem?_eq_getElem inside
  simp only [resolve, resolveIn, held] at refused
  split at refused
  · cases refused
    rfl
  · cases refused

theorem isFormat_of_resolveSpan (inside : slot < table.offsets.length)
    (refused : table.resolveSpan slot stop = .error fault) : fault.IsFormat := by
  have held : table.offsets[slot]? = some table.offsets[slot] := List.getElem?_eq_getElem inside
  simp only [resolveSpan, held] at refused
  split at refused
  · cases refused
    rfl
  · cases refused

theorem isFormat_of_get (inside : slot < table.offsets.length)
    (refused : table.get slot = .error fault) : fault.IsFormat := by
  have held : table.offsets[slot]? = some table.offsets[slot] := List.getElem?_eq_getElem inside
  simp [get, held] at refused

theorem isFormat_of_paddingOf {base alignment : Int} {offsets : List Int} (nonzero : alignment ≠ 0)
    (refused : paddingOf base offsets alignment = .error fault) : fault.IsFormat := by
  cases offsets with
  | nil => simp [paddingOf, Alignment.excess, nonzero] at refused
  | cons first rest =>
      simp only [paddingOf] at refused
      split at refused
      · cases refused
        rfl
      · cases refused

theorem read_aligned_refusesOnly (base : Int) (order : ByteOrder) {alignment : Int}
    (nonzero : alignment ≠ 0) :
    (read base order alignment).RefusesOnly buffer Fault.IsFormat := by
  refine (Reader.seek_refusesOnly base).bind fun _ => ?_
  refine ((Reader.field_refusesOnly .u32 order).upToLast _).bind fun words => ?_
  refine Reader.refusesOnly_position.bind fun place => ?_
  refine (Reader.refusesOnly_lift fun _ => isFormat_of_paddingOf nonzero).bind fun padding => ?_
  refine (Reader.expectGap_refusesOnly _ _ _ _).bind fun _ => ?_
  refine (Reader.seek_refusesOnly _).bind fun _ => ?_
  exact (Reader.refusesOnly_note _).bind fun _ => Reader.refusesOnly_pure _

theorem read_refusesOnly (base : Int) (order : ByteOrder) :
    (read base order defaultAlignment).RefusesOnly buffer Fault.IsFormat :=
  read_aligned_refusesOnly base order (by decide)

end PointerTable

namespace EntryArray

variable {α : Type} {buffer : Buffer} {entry : Reader α}

theorem expectEmpty_refusesOnly (table : PointerTable) (stop : Int) (what : String) :
    (expectEmpty table stop what).RefusesOnly buffer Fault.IsFormat :=
  Reader.expectGap_refusesOnly _ _ _ _

theorem readSlot_refusesOnly {table : PointerTable} {slot : Nat} (aliases : List Nat) (length : Int)
    (what gap : String) (only : entry.RefusesOnly buffer Fault.IsFormat)
    (inside : slot < table.offsets.length) :
    (readSlot table aliases length entry what gap slot).RefusesOnly buffer Fault.IsFormat := by
  have resolved (fault : Fault) (refused : table.resolveSpan slot length = .error fault) :
      fault.IsFormat := PointerTable.isFormat_of_resolveSpan inside refused
  refine (Reader.refusesOnly_lift resolved).bind fun span => ?_
  refine (Reader.seek_refusesOnly _).bind fun _ => only.bind fun value => ?_
  split
  · exact Reader.refusesOnly_pure _
  · refine Reader.refusesOnly_position.bind fun place => ?_
    split
    · exact (Reader.expectGap_refusesOnly _ _ _ _).bind fun _ => Reader.refusesOnly_pure _
    · exact (Reader.expectGap_refusesOnly _ _ _ _).bind fun _ => Reader.refusesOnly_pure _

/-- An array is refused only for faults of the format if each of its entries is. -/
theorem read_refusesOnly (start stop : Int) (what gap : String)
    (only : entry.RefusesOnly buffer Fault.IsFormat) :
    (read start stop entry what gap).RefusesOnly buffer Fault.IsFormat := by
  refine (PointerTable.read_refusesOnly start .little).bind fun table => ?_
  split
  · exact (expectEmpty_refusesOnly table stop what).bind fun _ => Reader.refusesOnly_pure _
  · refine Reader.RefusesOnly.bind (Reader.RefusesOnly.forEach fun slot member => ?_) fun _ =>
      Reader.refusesOnly_pure _
    exact readSlot_refusesOnly _ _ what gap only (List.mem_range.mp member)

end EntryArray

end FighterData
