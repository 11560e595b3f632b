import FighterData.Command.Job
import FighterData.Proofs.Workspace
import FighterData.Proofs.Wrapper

/-! Jobs step by step. A job succeeds if every step does on the desk that the one before it left, and
a fault ends it there. What is loaded from a file depends on the files alone. -/
namespace FighterData.Command

variable {α β : Type} {desk after : Desk} {path : Path}

theorem run_bind (first : Job α) (next : α → Job β) (desk : Desk) :
    (first >>= next).run desk =
      match first.run desk with
      | (.ok a, later) => (next a).run later
      | (.error fault, later) => (.error fault, later) := by
  show (ExceptT.bindCont next (first.run desk).1) (first.run desk).2 = _
  cases found : first.run desk with
  | mk result later => cases result <;> rfl

theorem run_bind_of_ok {first : Job α} {next : α → Job β} {a : α}
    (done : first.run desk = (.ok a, after)) :
    (first >>= next).run desk = (next a).run after := by
  rw [run_bind, done]

theorem run_bind_of_error {first : Job α} {fault : Fault}
    (refused : first.run desk = (.error fault, after)) (next : α → Job β) :
    (first >>= next).run desk = (.error fault, after) := by
  rw [run_bind, refused]

theorem run_bind_eq_ok_iff {first : Job α} {next : α → Job β} {b : β} :
    (first >>= next).run desk = (.ok b, after) ↔
      ∃ a middle, first.run desk = (.ok a, middle) ∧ (next a).run middle = (.ok b, after) := by
  constructor
  · intro done
    rw [run_bind] at done
    split at done
    next a middle found => exact ⟨a, middle, found, done⟩
    next fault later found => cases done
  · rintro ⟨a, middle, found, done⟩
    rw [run_bind_of_ok found, done]

theorem run_pure_eq_ok_iff {a b : α} :
    (pure a : Job α).run desk = (.ok b, after) ↔ b = a ∧ after = desk := by
  have step : (pure a : Job α).run desk = (.ok a, desk) := rfl
  rw [step, Prod.mk.injEq, Except.ok.injEq, @eq_comm _ a, @eq_comm _ desk]

theorem run_get_bind (next : Desk → Job β) (desk : Desk) :
    ((get : Job Desk) >>= next).run desk = (next desk).run desk := rfl

theorem run_print (line : String) (desk : Desk) :
    (print line).run desk = (.ok (), { desk with printed := desk.printed ++ line ++ "\n" }) := rfl

/-- Success does not depend on how errors are named. -/
theorem mapError_eq_ok_iff {ε η : Type} {rename : ε → η} {result : Except ε α} {a : α} :
    result.mapError rename = .ok a ↔ result = .ok a := by
  constructor
  · intro done
    cases result with
    | ok b => exact congrArg Except.ok (Except.ok.inj done)
    | error cause => cases done
  · rintro rfl
    rfl

theorem run_check {result : Except Fault α} {a : α} (success : result = .ok a) :
    (check result).run desk = (.ok a, desk) := by
  rw [success]
  rfl

theorem run_check_of_error {result : Except Fault α} {fault : Fault}
    (refused : result = .error fault) : (check result).run desk = (.error fault, desk) := by
  rw [refused]
  rfl

theorem run_check_eq_ok_iff {result : Except Fault α} {a : α} :
    (check result).run desk = (.ok a, after) ↔ result = .ok a ∧ after = desk := by
  cases result with
  | ok b =>
      rw [run_check rfl, Prod.mk.injEq, @eq_comm _ desk]
  | error fault =>
      rw [run_check_of_error rfl]
      constructor
      · intro done
        cases done
      · rintro ⟨done, _⟩
        cases done

theorem run_refused_eq_ok_iff {result : Except Refusal α} {a : α} :
    (refused path result).run desk = (.ok a, after) ↔ result = .ok a ∧ after = desk := by
  cases result with
  | ok b =>
      have step : (refused path (.ok b) : Job α).run desk = (.ok b, desk) := rfl
      rw [step, Prod.mk.injEq, Except.ok.injEq, Except.ok.injEq, @eq_comm _ desk]
  | error cause =>
      have step : (refused path (.error cause) : Job α).run desk =
          (.error (.file cause path.text), desk) := rfl
      rw [step]
      constructor
      · intro done
        cases done
      · rintro ⟨done, _⟩
        cases done

theorem run_refused {result : Except Refusal α} {a : α} (success : result = .ok a) :
    (refused path result).run desk = (.ok a, desk) :=
  run_refused_eq_ok_iff.mpr ⟨success, rfl⟩

theorem run_readFile_eq_ok_iff {data : Bytes} :
    (readFile path).run desk = (.ok data, after) ↔
      desk.workspace.readFile path = .ok data ∧ after = desk := by
  have step : (readFile path).run desk =
      (refused path (desk.workspace.readFile path)).run desk := rfl
  rw [step, run_refused_eq_ok_iff]

theorem run_readFile {data : Bytes} (held : desk.workspace.readFile path = .ok data) :
    (readFile path).run desk = (.ok data, desk) :=
  run_readFile_eq_ok_iff.mpr ⟨held, rfl⟩

theorem run_writeFile_eq_ok_iff {contents : Bytes} :
    (writeFile path contents).run desk = (.ok (), after) ↔
      ∃ changed, desk.workspace.writeFile path contents = .ok changed ∧
        after = { desk with workspace := changed } := by
  have step : (writeFile path contents).run desk =
      (refused path (desk.workspace.writeFile path contents) >>= fun changed =>
        (set { desk with workspace := changed } : Job Unit)).run desk := rfl
  rw [step, run_bind_eq_ok_iff]
  constructor
  · rintro ⟨changed, middle, written, done⟩
    obtain ⟨written, rfl⟩ := run_refused_eq_ok_iff.mp written
    exact ⟨changed, written, ((Prod.mk.injEq ..).mp done).2.symm⟩
  · rintro ⟨changed, written, rfl⟩
    exact ⟨changed, desk, run_refused_eq_ok_iff.mpr ⟨written, rfl⟩, rfl⟩

/-- Decoding adds notes to the desk and changes nothing else. -/
theorem run_decode_eq_ok_iff {data : Bytes} {binary : ObjectBinary} :
    (decode data).run desk = (.ok binary, after) ↔ ObjectBinary.decode data = .ok binary ∧
      after = { desk with notes := desk.notes ++ (ObjectBinary.readAll data).notes } := by
  have step : (decode data).run desk = (check (ObjectBinary.decode data)).run
      { desk with notes := desk.notes ++ (ObjectBinary.readAll data).notes } := rfl
  rw [step, run_check_eq_ok_iff]

theorem run_decode {data : Bytes} {binary : ObjectBinary}
    (read : ObjectBinary.decode data = .ok binary) :
    (decode data).run desk =
      (.ok binary, { desk with notes := desk.notes ++ (ObjectBinary.readAll data).notes }) :=
  run_decode_eq_ok_iff.mpr ⟨read, rfl⟩

/-- The file at the path is loaded as this binary, and was compressed in this way. -/
def Desk.Loads (desk : Desk) (path : Path) (binary : ObjectBinary) (wrapper : Option Wrapper) :
    Prop :=
  ((loadBinary path).run desk).1 = .ok (binary, wrapper)

section Loading

variable {binary other : ObjectBinary} {wrapper mark : Option Wrapper}

theorem run_loadBinary_eq_ok_iff :
    (loadBinary path).run desk = (.ok (binary, wrapper), after) ↔
      ∃ packed data, desk.workspace.readFile path = .ok packed ∧
        Wrapper.contents packed = .ok data ∧ ObjectBinary.decode data = .ok binary ∧
        Wrapper.detect packed = wrapper ∧
        after = { desk with notes := desk.notes ++ (ObjectBinary.readAll data).notes } := by
  simp only [loadBinary, run_bind_eq_ok_iff, run_readFile_eq_ok_iff, run_check_eq_ok_iff,
    run_decode_eq_ok_iff, run_pure_eq_ok_iff, Prod.mk.injEq]
  constructor
  · rintro ⟨packed, _, ⟨held, rfl⟩, data, _, ⟨unpacked, rfl⟩, _, _, ⟨read, rfl⟩, ⟨rfl, rfl⟩, rfl⟩
    exact ⟨packed, data, held, unpacked, read, rfl, rfl⟩
  · rintro ⟨packed, data, held, unpacked, read, rfl, rfl⟩
    exact ⟨packed, _, ⟨held, rfl⟩, data, _, ⟨unpacked, rfl⟩, binary, _, ⟨read, rfl⟩, ⟨rfl, rfl⟩, rfl⟩

theorem Desk.loads_iff :
    desk.Loads path binary wrapper ↔
      ∃ packed data, desk.workspace.readFile path = .ok packed ∧
        Wrapper.contents packed = .ok data ∧ ObjectBinary.decode data = .ok binary ∧
        Wrapper.detect packed = wrapper := by
  constructor
  · intro loads
    obtain ⟨packed, data, held, unpacked, read, same, _⟩ :=
      run_loadBinary_eq_ok_iff.mp (Prod.ext loads rfl : (loadBinary path).run desk = (_, _))
    exact ⟨packed, data, held, unpacked, read, same⟩
  · rintro ⟨packed, data, held, unpacked, read, same⟩
    exact congrArg Prod.fst
      (run_loadBinary_eq_ok_iff.mpr ⟨packed, data, held, unpacked, read, same, rfl⟩)

theorem Desk.Loads.run (loads : desk.Loads path binary wrapper) :
    ∃ notes, (loadBinary path).run desk = (.ok (binary, wrapper), { desk with notes := notes }) := by
  obtain ⟨packed, data, held, unpacked, read, same⟩ := Desk.loads_iff.mp loads
  exact ⟨_, run_loadBinary_eq_ok_iff.mpr ⟨packed, data, held, unpacked, read, same, rfl⟩⟩

theorem Desk.loads_of_run (done : (loadBinary path).run desk = (.ok (binary, wrapper), after)) :
    desk.Loads path binary wrapper :=
  congrArg Prod.fst done

theorem Desk.Loads.congr (loads : desk.Loads path binary wrapper)
    (same : after.workspace = desk.workspace) : after.Loads path binary wrapper := by
  rw [Desk.loads_iff] at loads ⊢
  rwa [same]

end Loading

end FighterData.Command
