import FighterData.Proofs.Reading
import FighterData.Reader.Failure

/-! The causes for which a reader can be refused, whatever it has read before. A set of allowed
causes is closed under putting readers one after the other, and the reads themselves are refused for
faults of the format only. -/
namespace FighterData

/-- The faults that a file can have as a file of this format. Every other fault is one of a
computation that went on with data it should not have been given. -/
def Fault.isFormat : Fault → Bool
  | mismatch _ _ => true
  | unknownOpcode _ _ => true
  | noTerminator _ _ => true
  | leftover _ _ _ => true
  | _ => false

def Fault.IsFormat (fault : Fault) : Prop :=
  fault.isFormat = true

namespace Reader

variable {α β : Type} {buffer : Buffer} {allowed : Fault → Prop}

/-- From any position of this buffer, the reader is refused for an allowed cause or not at all. -/
def RefusesOnly (reader : Reader α) (buffer : Buffer) (allowed : Fault → Prop) : Prop :=
  ∀ start fault stop, reader.Refuses buffer start fault stop → allowed fault

theorem RefusesOnly.mono {reader : Reader α} {more : Fault → Prop}
    (only : reader.RefusesOnly buffer allowed) (weaker : ∀ fault, allowed fault → more fault) :
    reader.RefusesOnly buffer more :=
  fun start fault stop refused => weaker fault (only start fault stop refused)

theorem refusesOnly_pure (a : α) : (pure a : Reader α).RefusesOnly buffer allowed :=
  fun _ _ _ refused => absurd refused not_refuses_pure

/-- The second reader is asked only about the values that the first one can return. -/
theorem RefusesOnly.bind_of_reads {first : Reader α} {next : α → Reader β}
    (only : first.RefusesOnly buffer allowed)
    (behind : ∀ start a middle, first.Reads buffer start a middle →
      (next a).RefusesOnly buffer allowed) : (first >>= next).RefusesOnly buffer allowed := by
  intro start fault stop refused
  cases refuses_bind_iff.mp refused with
  | inl early => exact only start fault stop early
  | inr late =>
      obtain ⟨a, middle, read, more⟩ := late
      exact behind start a middle read middle fault stop more

theorem RefusesOnly.bind {first : Reader α} {next : α → Reader β}
    (only : first.RefusesOnly buffer allowed) (behind : ∀ a, (next a).RefusesOnly buffer allowed) :
    (first >>= next).RefusesOnly buffer allowed :=
  only.bind_of_reads fun _ a _ _ => behind a

theorem refusesOnly_lift {result : Except Fault α}
    (each : ∀ fault, result = .error fault → allowed fault) :
    (lift result).RefusesOnly buffer allowed :=
  fun _ fault _ refused => each fault (refuses_lift_iff.mp refused).1

theorem refusesOnly_refuse {cause : Fault} (known : allowed cause) :
    (refuse cause : Reader α).RefusesOnly buffer allowed := by
  intro start fault stop refused
  rw [(refuses_refuse_iff.mp refused).1]
  exact known

/-- Nothing behind a refusal is asked. -/
theorem refusesOnly_refuse_bind {cause : Fault} {next : α → Reader β} (known : allowed cause) :
    (refuse cause >>= next).RefusesOnly buffer allowed :=
  (refusesOnly_refuse known).bind_of_reads fun _ _ _ read => absurd read not_reads_refuse

theorem refusesOnly_position : position.RefusesOnly buffer allowed :=
  fun _ _ _ refused => absurd refused not_refuses_position

/-- The position that is asked for behind a reader is the one where that reader has stopped. -/
theorem RefusesOnly.bind_position {first : Reader α} {next : α → Nat → Reader β}
    (only : first.RefusesOnly buffer allowed)
    (behind : ∀ start a middle, first.Reads buffer start a middle →
      (next a middle).RefusesOnly buffer allowed) :
    (first >>= fun a => position >>= next a).RefusesOnly buffer allowed := by
  intro start fault stop refused
  obtain early | ⟨a, middle, read, late⟩ := refuses_bind_iff.mp refused
  · exact only start fault stop early
  · obtain none | ⟨_, _, here, rest⟩ := refuses_bind_iff.mp late
    · exact refusesOnly_position middle fault stop none
    · obtain ⟨rfl, rfl⟩ := reads_position_iff.mp here
      exact behind start a _ read _ fault stop rest

theorem refusesOnly_size : Reader.size.RefusesOnly buffer allowed := by
  intro start fault stop refused
  simp [Refuses, run, Reader.size] at refused

theorem refusesOnly_buffer : Reader.buffer.RefusesOnly buffer allowed := by
  intro start fault stop refused
  simp [Refuses, run, Reader.buffer] at refused

theorem refusesOnly_note (entry : Note) : (note entry).RefusesOnly buffer allowed :=
  fun _ _ _ refused => absurd refused not_refuses_note

theorem RefusesOnly.times {item : Reader α} (only : item.RefusesOnly buffer allowed) (count : Nat) :
    (times item count).RefusesOnly buffer allowed := by
  induction count with
  | zero => exact refusesOnly_pure []
  | succ count ih => exact only.bind fun _ => ih.bind fun _ => refusesOnly_pure _

theorem RefusesOnly.forEach {item : α → Reader β} {items : List α}
    (each : ∀ a ∈ items, (item a).RefusesOnly buffer allowed) :
    (forEach item items).RefusesOnly buffer allowed := by
  induction items with
  | nil => exact refusesOnly_pure []
  | cons a rest ih =>
      rw [List.forall_mem_cons] at each
      exact each.1.bind fun _ => (ih each.2).bind fun _ => refusesOnly_pure _

theorem RefusesOnly.upToLast {item : Reader α} (only : item.RefusesOnly buffer allowed)
    (isLast : α → Bool) : (upToLast item isLast).RefusesOnly buffer allowed := by
  have within (budget : Nat) : (upToLastWithin item isLast budget).RefusesOnly buffer allowed := by
    induction budget with
    | zero => exact only.bind fun _ => refusesOnly_pure _
    | succ budget ih =>
        refine only.bind fun a => ?_
        split
        · exact refusesOnly_pure _
        · exact ih.bind fun _ => refusesOnly_pure _
  intro start fault stop refused
  exact within (buffer.size - start) start fault stop refused

theorem seek_refusesOnly (target : Int) : (seek target).RefusesOnly buffer Fault.IsFormat := by
  intro start fault stop refused
  obtain ⟨_, rfl, _⟩ := refuses_seek_iff.mp refused
  rfl

theorem bytes_refusesOnly (count : Int) : (bytes count).RefusesOnly buffer Fault.IsFormat := by
  intro start fault stop refused
  obtain ⟨_, rfl, _⟩ := refuses_bytes_iff.mp refused
  rfl

theorem field_refusesOnly (width : Width) (order : ByteOrder) :
    (field width order).RefusesOnly buffer Fault.IsFormat :=
  (bytes_refusesOnly _).bind fun _ => refusesOnly_pure _

theorem byte_refusesOnly : byte.RefusesOnly buffer Fault.IsFormat :=
  (bytes_refusesOnly _).bind fun _ => refusesOnly_pure _

theorem fields_refusesOnly (layout : Layout) :
    (fields layout).RefusesOnly buffer Fault.IsFormat :=
  (bytes_refusesOnly _).bind fun _ => refusesOnly_pure _

theorem expect_refusesOnly (magic : Bytes) (what : String) :
    (expect magic what).RefusesOnly buffer Fault.IsFormat := by
  refine refusesOnly_position.bind fun start => (bytes_refusesOnly _).bind fun found => ?_
  split
  · exact refusesOnly_refuse rfl
  · exact refusesOnly_pure _

theorem expectGap_refusesOnly (first last : Int) (accepts : Bytes → Bool) (what : String) :
    (expectGap first last accepts what).RefusesOnly buffer Fault.IsFormat := by
  intro start fault stop refused
  obtain ⟨_, cause⟩ := refuses_expectGap_iff.mp refused
  split at cause
  · rw [cause]
    rfl
  · rw [cause.2]
    rfl

end Reader

end FighterData
