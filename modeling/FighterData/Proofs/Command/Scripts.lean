import FighterData.Command.Scripts
import FighterData.Proofs.Command.Saving

/-! Importing a listing. The check of the rebuilt file compares the actions of one entry only. That is
enough: what is read from a file is well formed, so actions that have come back are well formed too,
and then the whole edited binary is read back from its encoding. -/
namespace FighterData

namespace ObjectBinary

variable {binary : ObjectBinary} {entry : EntryRef} {actions : List Action}

theorem WellFormed.scriptFits (fits : binary.WellFormed) (inside : binary.Has entry) :
    Action.ScriptFits (binary.actions entry) := by
  cases entry with
  | player => exact fits.player.script.actions
  | object index =>
      have held : binary.objects[index]? = some binary.objects[index] :=
        List.getElem?_eq_getElem inside
      rw [ObjectBinary.actions, held]
      exact (fits.objects _ (List.getElem_mem inside)).script

theorem WellFormed.setActions (fits : binary.WellFormed) (script : Action.ScriptFits actions) :
    (binary.setActions entry actions).WellFormed := by
  cases entry with
  | player =>
      exact ⟨{ fits.player with script := { fits.player.script with actions := script } },
        fits.objects⟩
  | object index =>
      refine ⟨fits.player, ?_⟩
      intro object member
      obtain ⟨place, found⟩ := List.mem_iff_getElem?.mp member
      change (binary.objects.modify index _)[place]? = some object at found
      rw [List.getElem?_modify] at found
      obtain ⟨old, held, rfl⟩ := Option.map_eq_some_iff.mp found
      have each := fits.objects old (List.mem_of_getElem? held)
      split
      · exact { each with script := script }
      · exact each

/-- The key does not ask what an entry holds. -/
theorem select_setActions (binary : ObjectBinary) (entry : EntryRef) (actions : List Action)
    (key : String) : (binary.setActions entry actions).select key = binary.select key := by
  cases entry with
  | player => rfl
  | object index =>
      have count : (binary.setActions (.object index) actions).objects.length =
          binary.objects.length := List.length_modify _ _ _
      rw [select, select, count]

end ObjectBinary

namespace Command

/-- A listing of one entry of a binary, and the files that both are in. -/
structure Sources (desk : Desk) (file listing key : String) (binary : ObjectBinary)
    (wrapper : Option Wrapper) (entry : EntryRef) (actions : List Action) : Prop where
  loads : desk.Loads (Path.ofString file) binary wrapper
  selects : binary.select key = .ok entry
  parses : ∃ contents text, desk.workspace.readFile (Path.ofString listing) = .ok contents ∧
    Text.ofUtf8 contents = .ok text ∧ Listing.parse text = .ok actions

variable {desk after : Desk} {target : Path} {file listing output key : String}
  {binary : ObjectBinary} {wrapper : Option Wrapper} {entry : EntryRef} {actions : List Action}

theorem run_readText_eq_ok_iff {path : Path} {text : String} :
    (readText path).run desk = (.ok text, after) ↔
      ∃ contents, desk.workspace.readFile path = .ok contents ∧
        Text.ofUtf8 contents = .ok text ∧ after = desk := by
  simp only [readText, run_bind_eq_ok_iff, run_readFile_eq_ok_iff, run_check_eq_ok_iff,
    mapError_eq_ok_iff]
  constructor
  · rintro ⟨contents, _, ⟨held, rfl⟩, spelled, rfl⟩
    exact ⟨contents, held, spelled, rfl⟩
  · rintro ⟨contents, held, spelled, rfl⟩
    exact ⟨contents, _, ⟨held, rfl⟩, spelled, rfl⟩

theorem run_warnUnended (source : Path) (ended : Bool) (desk : Desk) :
    ∃ printed, (warnUnended source ended).run desk = (.ok (), { desk with printed := printed }) := by
  cases ended with
  | true => exact ⟨_, rfl⟩
  | false => exact ⟨_, rfl⟩

theorem exists_of_run_checkImported
    (done : (checkImported target key actions).run desk = (.ok (), after)) :
    after.workspace = desk.workspace ∧ ∃ binary wrapper entry,
      desk.Loads target binary wrapper ∧ binary.select key = .ok entry ∧
        binary.actions entry = actions := by
  simp only [checkImported, run_bind_eq_ok_iff, run_check_eq_ok_iff] at done
  obtain ⟨⟨binary, wrapper⟩, middle, loaded, entry, _, ⟨selects, rfl⟩, checked⟩ := done
  have loads := Desk.loads_of_run loaded
  obtain ⟨_, reloaded⟩ := loads.run
  obtain ⟨_, rfl⟩ := Prod.mk.inj (loaded.symm.trans reloaded)
  split at checked
  next other => cases checked
  next same =>
    obtain ⟨_, rfl⟩ := Prod.mk.inj (checked.symm.trans (run_print _ _))
    exact ⟨rfl, binary, wrapper, entry, loads, selects, not_not.mp same⟩

theorem run_checkImported (loads : ∃ wrapper, desk.Loads target binary wrapper)
    (selects : binary.select key = .ok entry) (same : binary.actions entry = actions) :
    ∃ after, (checkImported target key actions).run desk = (.ok (), after) ∧
      after.workspace = desk.workspace := by
  obtain ⟨wrapper, loads⟩ := loads
  obtain ⟨notes, loaded⟩ := loads.run
  rw [checkImported, run_bind_of_ok loaded, run_bind_of_ok (run_check selects), same]
  simp only [ne_eq, not_true, if_false]
  exact ⟨_, run_print _ _, rfl⟩

/-- An import with its files read: what is left is to ask for the end of the script, to save and to
check. -/
theorem run_importScript_eq
    (sources : Sources desk file listing key binary wrapper entry actions) :
    ∃ notes line, (importScript file listing output key true).run desk =
      (check (endsInScriptEnd actions) >>= fun ended =>
        warnUnended (Path.ofString listing) ended >>= fun _ =>
          saveBinary (binary.setActions entry actions) (Path.ofString output) wrapper >>= fun _ =>
            print line >>= fun _ => checkImported (Path.ofString output) key actions).run
        { desk with notes := notes } := by
  obtain ⟨notes, loaded⟩ := sources.loads.run
  obtain ⟨contents, text, held, spelled, parsed⟩ := sources.parses
  have listed : (readText (Path.ofString listing)).run { desk with notes := notes } =
      (.ok text, { desk with notes := notes }) :=
    run_readText_eq_ok_iff.mpr ⟨contents, held, spelled, rfl⟩
  rw [importScript, run_bind_of_ok loaded, run_bind_of_ok (run_check sources.selects),
    run_bind_of_ok listed, run_bind_of_ok (run_check parsed)]
  exact ⟨notes, _, rfl⟩

/-- What a checked import has done: the edited binary was saved, and the actions came back. -/
theorem exists_of_run_importScript
    (sources : Sources desk file listing key binary wrapper entry actions)
    (done : (importScript file listing output key true).run desk = (.ok (), after)) :
    ∃ before saved, before.workspace = desk.workspace ∧
      (saveBinary (binary.setActions entry actions) (Path.ofString output) wrapper).run before =
        (.ok (), saved) ∧
      after.workspace = saved.workspace ∧ ∃ other mark chosen,
        saved.Loads (Path.ofString output) other mark ∧ other.select key = .ok chosen ∧
          other.actions chosen = actions := by
  obtain ⟨notes, line, run⟩ := run_importScript_eq sources
  rw [run] at done
  obtain ⟨ended, _, asked, done⟩ := run_bind_eq_ok_iff.mp done
  obtain ⟨_, rfl⟩ := run_check_eq_ok_iff.mp asked
  obtain ⟨printed, warned⟩ := run_warnUnended (Path.ofString listing) ended
    { desk with notes := notes }
  rw [run_bind_of_ok warned] at done
  obtain ⟨_, saved, wrote, done⟩ := run_bind_eq_ok_iff.mp done
  rw [run_bind_of_ok (run_print _ _)] at done
  obtain ⟨kept, other, mark, chosen, loads, selects, same⟩ := exists_of_run_checkImported done
  exact ⟨{ desk with notes := notes, printed := printed }, saved, rfl, wrote, kept, other, mark,
    chosen, loads.congr rfl, selects, same⟩

/-- A script that fits can be asked for its end. -/
theorem exists_endsInScriptEnd (script : Action.ScriptFits actions) :
    ∃ ended, endsInScriptEnd actions = .ok ended := by
  obtain ⟨front, last, rfl, _, closes⟩ := script
  refine ⟨last.isLast, ?_⟩
  rw [endsInScriptEnd, List.getLast?_concat]
  exact Action.endsScript_eq_isLast closes.holds.coded

/-- An import runs through if the edited binary can be saved and is read back from its encoding. -/
theorem run_importScript (sources : Sources desk file listing key binary wrapper entry actions)
    {data : Bytes} (asked : ∃ ended, endsInScriptEnd actions = .ok ended)
    (encoded : (binary.setActions entry actions).encode = .ok data)
    (read : ObjectBinary.decode data = .ok (binary.setActions entry actions))
    (fits : wrapper ≠ none → Wrapper.SizesFit data)
    (writable : desk.workspace.Writable (Path.ofString output)) :
    ∃ after, (importScript file listing output key true).run desk = (.ok (), after) := by
  obtain ⟨notes, line, run⟩ := run_importScript_eq sources
  obtain ⟨ended, asked⟩ := asked
  obtain ⟨printed, warned⟩ := run_warnUnended (Path.ofString listing) ended
    { desk with notes := notes }
  obtain ⟨saved, wrote⟩ : ∃ saved, (saveBinary (binary.setActions entry actions)
      (Path.ofString output) wrapper).run { desk with notes := notes, printed := printed } =
        (.ok (), saved) := exists_run_saveBinary encoded fits writable
  obtain ⟨_, same, loads⟩ := loads_of_save wrote
  obtain rfl := Except.ok.inj (encoded.symm.trans same)
  have reloads := (loads _ wrapper).mpr ⟨read, rfl⟩
  rw [run, run_bind_of_ok (run_check asked), run_bind_of_ok warned, run_bind_of_ok wrote,
    run_bind_of_ok (run_print _ _)]
  refine (run_checkImported ?_ ((binary.select_setActions entry actions key).trans sources.selects)
    (ObjectBinary.actions_setActions_self (ObjectBinary.has_of_select sources.selects)
      actions)).imp fun _ checked => checked.1
  exact ⟨wrapper, reloads.congr rfl⟩

/-- Only a script that fits comes back from the rebuilt file. -/
theorem scriptFits_of_run_importScript
    (sources : Sources desk file listing key binary wrapper entry actions)
    (done : (importScript file listing output key true).run desk = (.ok (), after)) :
    Action.ScriptFits actions := by
  obtain ⟨_, _, _, wrote, _, other, mark, chosen, loads, selects, rfl⟩ :=
    exists_of_run_importScript sources done
  obtain ⟨_, _, saves⟩ := loads_of_save wrote
  obtain ⟨read, _⟩ := (saves other mark).mp loads
  exact (ObjectBinary.wellFormed_of_decode read).scriptFits (ObjectBinary.has_of_select selects)

theorem Sources.wellFormed (sources : Sources desk file listing key binary wrapper entry actions)
    (script : Action.ScriptFits actions) : (binary.setActions entry actions).WellFormed :=
  sources.loads.wellFormed.setActions script

/-- A checked import that runs through has written the edited binary, whatever the listing is. If the
listing is a script that fits, it does run through, unless the edited binary has no encoding; bytes
that stay below the closing word are one. -/
theorem importScript_checked
    (sources : Sources desk file listing key binary wrapper entry actions)
    (writable : desk.workspace.Writable (Path.ofString output))
    (short : ∀ data, (binary.setActions entry actions).encode = .ok data →
      data.length < PointerTable.sentinel) :
    (∀ after, (importScript file listing output key true).run desk = (.ok (), after) →
      after.Loads (Path.ofString output) (binary.setActions entry actions) wrapper) ∧
    (Action.ScriptFits actions →
      (∀ data, (binary.setActions entry actions).encode = .ok data →
        (wrapper ≠ none → (Zlib.compress data).length < 0x100000000) →
          ∃ after, (importScript file listing output key true).run desk = (.ok (), after)) ∧
      ((binary.setActions entry actions).bytes.length < PointerTable.sentinel →
        (binary.setActions entry actions).encode =
          .ok (binary.setActions entry actions).bytes)) := by
  refine ⟨?_, fun script => ⟨?_, ObjectBinary.encode_of_short (sources.wellFormed script)⟩⟩
  · intro after done
    have edited := sources.wellFormed (scriptFits_of_run_importScript sources done)
    obtain ⟨_, saved, _, wrote, kept, _⟩ := exists_of_run_importScript sources done
    obtain ⟨data, encoded, saves⟩ := loads_of_save wrote
    have read := ObjectBinary.decode_of_encode edited encoded (short data encoded)
    exact ((saves _ _).mpr ⟨read, rfl⟩).congr kept
  · intro data encoded stream
    have below := short data encoded
    have fits (compressed : wrapper ≠ none) : Wrapper.SizesFit data :=
      ⟨by unfold PointerTable.sentinel at below; omega, stream compressed⟩
    exact run_importScript sources (exists_endsInScriptEnd script) encoded
      (ObjectBinary.decode_of_encode (sources.wellFormed script) encoded below) fits writable

/-- A listing for the object of `small`, with defaults left out, and its script. -/
def smallListing : String :=
  "action flags=0x02\n    Unk1 flag=1 arg=3\n    ScriptEnd\n"

def smallScript : List Action :=
  [{ flags := 2, body := .code [.ofSlots .unk1 [1, 3], .ofSlots .scriptEnd [0, 0]] }]

theorem smallScript_fits : Action.ScriptFits smallScript :=
  ⟨[], _, rfl, by simp, ⟨rfl, by decide, by decide⟩,
    Or.inr ⟨by decide, ⟨[_], _, rfl, by decide, rfl⟩⟩⟩

/-- The file of `small` under a magic, and the listing beside it. -/
def smallDesk : Desk where
  workspace := ⟨[(["in.bin"], .file (Wrapper.zcmp.bytes ObjectBinary.small.bytes)),
    (["in.txt"], .file (Text.utf8 smallListing))]⟩

theorem smallDesk_sources : Sources smallDesk "in.bin" "in.txt" "0" .small (some .zcmp)
    (.object 0) smallScript where
  loads := by
    have located (workspace : Workspace) :
        workspace.locate (Path.ofString "in.bin") = .ok ["in.bin"] := by cbv
    have held : smallDesk.workspace.readFile (Path.ofString "in.bin") =
        .ok (Wrapper.zcmp.bytes ObjectBinary.small.bytes) :=
      Workspace.readFile_eq_ok_iff.mpr ⟨_, located _, rfl⟩
    exact Desk.loads_iff.mpr ⟨_, _, held, Wrapper.contents_bytes ObjectBinary.small_sizesFit,
      ObjectBinary.decode_bytes ObjectBinary.small_wellFormed ObjectBinary.short_small,
      Wrapper.detect_bytes _ _⟩
  selects := by cbv
  parses := by
    have located (workspace : Workspace) :
        workspace.locate (Path.ofString "in.txt") = .ok ["in.txt"] := by cbv
    exact ⟨Text.utf8 smallListing, smallListing,
      Workspace.readFile_eq_ok_iff.mpr ⟨_, located _, rfl⟩, Text.ofUtf8_utf8 smallListing,
      by decide +kernel⟩

theorem importScript_checked_small :
    ∃ after, (importScript "in.bin" "in.txt" "out.bin" "0" true).run smallDesk =
        (.ok (), after) ∧
      after.Loads (Path.ofString "out.bin") (ObjectBinary.small.setActions (.object 0) smallScript)
        (some .zcmp) := by
  have size : (ObjectBinary.small.setActions (.object 0) smallScript).bytes.length = 5395 := by
    decide +kernel
  have below : ((ObjectBinary.small.setActions (.object 0) smallScript).bytes.length : Int) <
      PointerTable.sentinel := by
    rw [size]
    decide
  have short (data : Bytes)
      (encoded : (ObjectBinary.small.setActions (.object 0) smallScript).encode = .ok data) :
      (data.length : Int) < PointerTable.sentinel := by
    have edited := smallDesk_sources.wellFormed smallScript_fits
    obtain ⟨_, rfl⟩ := (ObjectBinary.encode_eq_ok_iff edited).mp encoded
    exact below
  have located (workspace : Workspace) :
      workspace.locate (Path.ofString "out.bin") = .ok ["out.bin"] := by cbv
  have free : smallDesk.workspace.itemAt ["out.bin"] = none := rfl
  have writable : smallDesk.workspace.Writable (Path.ofString "out.bin") :=
    ⟨["out.bin"], located _, by simp [free]⟩
  obtain ⟨sound, complete⟩ := importScript_checked smallDesk_sources writable short
  obtain ⟨runs, encodes⟩ := complete smallScript_fits
  obtain ⟨after, done⟩ := runs _ (encodes below) fun _ =>
    (Wrapper.sizesFit_of_bound (by rw [size]; decide)).stream
  exact ⟨after, done, sound after done⟩

end Command

end FighterData
