import FighterData.Command.Binaries
import FighterData.Proofs.Command.Job

/-! The check of a file succeeds if its contents are read and encode to themselves. -/
namespace FighterData.Command

variable {desk : Desk}

/-- A file whose contents encode to themselves is accepted. -/
theorem verify_of_rebuilt {file : String} {packed data : Bytes} {binary : ObjectBinary}
    (held : desk.workspace.readFile (Path.ofString file) = .ok packed)
    (contents : Wrapper.contents packed = .ok data)
    (read : ObjectBinary.decode data = .ok binary) (encoded : binary.encode = .ok data) :
    ((verify file).run desk).1 = .ok true := by
  have same : Bytes.firstMismatch data data = none := Bytes.firstMismatch_eq_none_iff.mpr rfl
  unfold verify
  rw [run_bind_of_ok (run_readFile held), run_bind_of_ok (run_check contents),
    run_bind_of_ok (run_decode read), run_bind_of_ok (run_check encoded), same]
  rfl

end FighterData.Command
