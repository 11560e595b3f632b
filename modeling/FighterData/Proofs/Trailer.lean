import FighterData.Proofs.Reading
import FighterData.Reader.Failure

/-! The check of the gap behind the last entry of an array. The check looks for the first run of FF
that is long enough and wants zeros around it; the gaps that pass are those made of zeros, a run of
exactly that length, and zeros. A longer run leaves FF behind the first match, and a second run
does too, so neither passes. -/
namespace FighterData

/-- A gap is a trailer in one way only. -/
theorem Bytes.trailer_inj {padding before after other rest : Nat} (positive : 0 < padding) :
    trailer padding before after = trailer padding other rest ↔ before = other ∧ after = rest := by
  constructor
  · intro same
    have front : some before = some other := by
      rw [← firstRun?_trailer positive before after, same, firstRun?_trailer positive]
    have whole := congrArg List.length same
    rw [length_trailer, length_trailer] at whole
    obtain rfl := Option.some.inj front
    exact ⟨rfl, by omega⟩
  · rintro ⟨rfl, rfl⟩
    rfl

namespace Reader

variable {buffer : Buffer} {first last : Int} {place stop padding : Nat} {what : String}

/-- The bytes between two positions, as far as the buffer reaches, are a trailer. -/
def HoldsTrailer (buffer : Buffer) (first last : Int) (padding before after : Nat) : Prop :=
  (buffer.extract first.toNat last.toNat).toList = Bytes.trailer padding before after

theorem reads_expectTrailer_iff (positive : 0 < padding) :
    (expectTrailer first last padding what).Reads buffer place () stop ↔
      stop = place ∧ first ≤ last ∧
        ∃ before after, HoldsTrailer buffer first last padding before after := by
  rw [expectTrailer, reads_expectGap_iff, closesGap_iff positive]
  exact and_rotate.symm

theorem refuses_expectTrailer_iff (positive : 0 < padding) {fault : Fault} :
    (expectTrailer first last padding what).Refuses buffer place fault stop ↔
      stop = place ∧
        if last < first then fault = .mismatch (.overrun what) (some last)
        else (¬ ∃ before after, HoldsTrailer buffer first last padding before after) ∧
          fault = .leftover what first last := by
  rw [expectTrailer, refuses_expectGap_iff, ← Bool.not_eq_true, closesGap_iff positive]
  rfl

/-- Between ordered positions the check passes exactly the trailers with a run of that length, it
refuses everything else as left over, and it never moves. Zeros before and behind the run have
lengths that the gap determines. -/
theorem expectTrailer_passes_exactly (buffer : Buffer) (start : Nat) (last : Int) (what : String)
    (place : Nat) (positive : 0 < padding) :
    (start ≤ last →
      (∀ stop, (expectTrailer start last padding what).Reads buffer place () stop ↔
        stop = place ∧ ∃ before after, HoldsTrailer buffer start last padding before after) ∧
      (∀ fault stop, (expectTrailer start last padding what).Refuses buffer place fault stop ↔
        stop = place ∧ fault = .leftover what start last ∧
          ¬ ∃ before after, HoldsTrailer buffer start last padding before after)) ∧
    (last < start →
      (expectTrailer start last padding what).Refuses buffer place
        (.mismatch (.overrun what) (some last)) place) ∧
    ∀ before after other rest, HoldsTrailer buffer start last padding before after →
      HoldsTrailer buffer start last padding other rest → before = other ∧ after = rest := by
  refine ⟨fun ordered => ⟨fun stop => ?_, fun fault stop => ?_⟩, fun crossed => ?_, ?_⟩
  · rw [reads_expectTrailer_iff positive]
    exact ⟨fun passed => ⟨passed.1, passed.2.2⟩, fun found => ⟨found.1, ordered, found.2⟩⟩
  · rw [refuses_expectTrailer_iff positive, if_neg (by omega)]
    exact and_congr_right fun _ => and_comm
  · exact (refuses_expectTrailer_iff positive).mpr ⟨rfl, (if_pos crossed).mpr rfl⟩
  · intro before after other rest held again
    exact (Bytes.trailer_inj positive).mp (held.symm.trans again)

/-- Other bytes, two zeros, four bytes FF, and a zero with which the buffer ends. -/
def cutTrailer : Buffer :=
  #[1, 2, 3, 0, 0, 255, 255, 255, 255, 0]

theorem expectTrailer_passes_exactly_cut :
    0 < 4 ∧ HoldsTrailer cutTrailer 3 20 4 2 1 ∧
      (expectTrailer 3 20 4 "Cells").Reads cutTrailer 7 () 7 ∧
      (expectTrailer 3 20 3 "Cells").Refuses cutTrailer 7 (.leftover "Cells" 3 20) 7 ∧
      (expectTrailer 3 2 4 "Cells").Refuses cutTrailer 7
        (.mismatch (.overrun "Cells") (some 2)) 7 ∧
      ∀ before after, HoldsTrailer cutTrailer 3 20 4 before after → before = 2 ∧ after = 1 := by
  have held : HoldsTrailer cutTrailer 3 20 4 2 1 := by
    show _ = _
    decide
  have longer : ¬ ∃ before after, HoldsTrailer cutTrailer 3 20 3 before after := by
    intro found
    have accepted := (closesGap_iff (by decide : 0 < 3)).mpr found
    cases accepted
  have four := expectTrailer_passes_exactly cutTrailer 3 20 "Cells" 7 (by decide : 0 < 4)
  have three := expectTrailer_passes_exactly cutTrailer 3 20 "Cells" 7 (by decide : 0 < 3)
  have crossed := expectTrailer_passes_exactly cutTrailer 3 2 "Cells" 7 (by decide : 0 < 4)
  refine ⟨by decide, held, ?_, ?_, crossed.2.1 (by decide), ?_⟩
  · exact ((four.1 (by decide)).1 7).mpr ⟨rfl, 2, 1, held⟩
  · exact ((three.1 (by decide)).2 _ 7).mpr ⟨rfl, rfl, longer⟩
  · exact fun before after again => four.2.2 before after 2 1 again held

end Reader

end FighterData
