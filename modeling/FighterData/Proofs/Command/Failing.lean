import FighterData.Command.Line
import FighterData.Proofs.Command.Scripts

/-! Imports that fail. Nothing in front of the write touches the files, and nothing behind it does. So a
failed import has left every file as it was, or else the edited binary was written and is not read
back; only the file at the output path has changed then. -/
namespace FighterData.Command

variable {α β : Type} {desk after : Desk} {fault : Fault}

/-- Whatever comes of the job, the files are the same afterwards. -/
def KeepsFiles (job : Job α) : Prop :=
  ∀ desk, (job.run desk).2.workspace = desk.workspace

section Keeping

variable {first : Job α} {next : α → Job β} {path : Path}

theorem keepsFiles_pure (a : α) : KeepsFiles (pure a : Job α) :=
  fun _ => rfl

theorem keepsFiles_throw (fault : Fault) : KeepsFiles (throw fault : Job α) :=
  fun _ => rfl

theorem keepsFiles_print (line : String) : KeepsFiles (print line) :=
  fun _ => rfl

theorem keepsFiles_check (result : Except Fault α) : KeepsFiles (check result) := by
  cases result with
  | ok a => exact keepsFiles_pure a
  | error fault => exact keepsFiles_throw fault

theorem KeepsFiles.bind (keeps : KeepsFiles first) (behind : ∀ a, KeepsFiles (next a)) :
    KeepsFiles (first >>= next) := by
  intro desk
  have kept := keeps desk
  rw [run_bind]
  split
  next a middle found =>
    rw [found] at kept
    exact (behind a middle).trans kept
  next fault middle found =>
    rw [found] at kept
    exact kept

theorem keepsFiles_readFile (path : Path) : KeepsFiles (readFile path) := by
  intro desk
  have step : (readFile path).run desk =
      (refused path (desk.workspace.readFile path)).run desk := rfl
  rw [step]
  cases desk.workspace.readFile path with
  | ok data => rfl
  | error cause => rfl

theorem keepsFiles_readText (path : Path) : KeepsFiles (readText path) :=
  (keepsFiles_readFile path).bind fun _ => keepsFiles_check _

theorem keepsFiles_decode (data : Bytes) : KeepsFiles (decode data) := by
  intro desk
  have step : (decode data).run desk = (check (ObjectBinary.decode data)).run
      { desk with notes := desk.notes ++ (ObjectBinary.readAll data).notes } := rfl
  rw [step]
  exact keepsFiles_check _ _

theorem keepsFiles_loadBinary (path : Path) : KeepsFiles (loadBinary path) :=
  (keepsFiles_readFile path).bind fun _ => (keepsFiles_check _).bind fun _ =>
    (keepsFiles_decode _).bind fun _ => keepsFiles_pure _

theorem keepsFiles_warnUnended (source : Path) (ended : Bool) :
    KeepsFiles (warnUnended source ended) := by
  cases ended with
  | true => exact keepsFiles_pure ()
  | false => exact keepsFiles_print _

theorem keepsFiles_checkImported (target : Path) (key : String) (actions : List Action) :
    KeepsFiles (checkImported target key actions) := by
  refine (keepsFiles_loadBinary target).bind fun loaded => ?_
  refine (keepsFiles_check _).bind fun entry => ?_
  split
  · exact (keepsFiles_throw _).bind fun _ => keepsFiles_print _
  · exact (keepsFiles_pure ()).bind fun _ => keepsFiles_print _

/-- A sequence that fails has failed before its first step was through, or behind it. -/
theorem KeepsFiles.exists_of_run_bind (keeps : KeepsFiles first)
    (failed : (first >>= next).run desk = (.error fault, after)) :
    after.workspace = desk.workspace ∨ ∃ a middle, first.run desk = (.ok a, middle) ∧
      middle.workspace = desk.workspace ∧ (next a).run middle = (.error fault, after) := by
  have kept := keeps desk
  rw [run_bind] at failed
  split at failed
  next a middle found =>
    rw [found] at kept
    exact Or.inr ⟨a, middle, found, kept, failed⟩
  next fault middle found =>
    obtain ⟨_, rfl⟩ := Prod.mk.inj failed
    rw [found] at kept
    exact Or.inl kept

end Keeping

section Importing

variable {file listing output key : String} {target : Path} {binary : ObjectBinary}
  {wrapper : Option Wrapper} {entry : EntryRef} {actions : List Action}

/-- The file at the path is loaded, and the selected entry of it has these actions. -/
def Desk.ReadsBack (desk : Desk) (target : Path) (key : String) (actions : List Action) : Prop :=
  ∃ binary wrapper entry, desk.Loads target binary wrapper ∧ binary.select key = .ok entry ∧
    binary.actions entry = actions

theorem Desk.ReadsBack.congr (found : desk.ReadsBack target key actions)
    (same : after.workspace = desk.workspace) : after.ReadsBack target key actions := by
  obtain ⟨binary, wrapper, entry, loads, rest⟩ := found
  exact ⟨binary, wrapper, entry, loads.congr same, rest⟩

/-- An import that fails has not touched the files, or it has come to read all of its sources. -/
theorem exists_sources_of_run_importScript
    (failed : (importScript file listing output key true).run desk = (.error fault, after)) :
    after.workspace = desk.workspace ∨ ∃ binary wrapper entry actions,
      Sources desk file listing key binary wrapper entry actions := by
  unfold importScript at failed
  obtain same | ⟨⟨binary, wrapper⟩, opened, loaded, kept, selecting⟩ :=
    (keepsFiles_loadBinary _).exists_of_run_bind failed
  · exact Or.inl same
  dsimp only at selecting
  obtain same | ⟨entry, chosen, selected, still, listening⟩ :=
    (keepsFiles_check _).exists_of_run_bind selecting
  · exact Or.inl (same.trans kept)
  have files : chosen.workspace = desk.workspace := still.trans kept
  obtain same | ⟨text, listed, spelled, unmoved, parsing⟩ :=
    (keepsFiles_readText _).exists_of_run_bind listening
  · exact Or.inl (same.trans files)
  obtain same | ⟨actions, _, parsed, _, _⟩ := (keepsFiles_check _).exists_of_run_bind parsing
  · exact Or.inl (same.trans (unmoved.trans files))
  obtain ⟨contents, held, decoded, _⟩ := run_readText_eq_ok_iff.mp spelled
  rw [files] at held
  exact Or.inr ⟨binary, wrapper, entry, actions, Desk.loads_of_run loaded,
    (run_check_eq_ok_iff.mp selected).1, contents, text, held, decoded,
    (run_check_eq_ok_iff.mp parsed).1⟩

/-- Saving that fails has not touched the files. -/
theorem workspace_of_run_saveBinary
    (failed : (saveBinary binary target wrapper).run desk = (.error fault, after)) :
    after.workspace = desk.workspace := by
  obtain same | ⟨data, encoded, _, kept, packing⟩ := (keepsFiles_check _).exists_of_run_bind failed
  · exact same
  obtain same | ⟨packed, ready, _, still, writing⟩ :=
    (keepsFiles_check _).exists_of_run_bind packing
  · exact same.trans kept
  have files : ready.workspace = desk.workspace := still.trans kept
  cases written : ready.workspace.writeFile target packed with
  | ok changed =>
      have done := run_writeFile_eq_ok_iff.mpr ⟨changed, written, rfl⟩
      cases done.symm.trans writing
  | error cause =>
      have step : (writeFile target packed).run ready =
          (refused target (ready.workspace.writeFile target packed) >>= fun changed =>
            (set { ready with workspace := changed } : Job Unit)).run ready := rfl
      rw [step, written] at writing
      obtain ⟨_, rfl⟩ := Prod.mk.inj writing
      exact files

/-- The check fails only for a file that is not read back, and leaves it there. -/
theorem not_readsBack_of_run_checkImported
    (failed : (checkImported target key actions).run desk = (.error fault, after)) :
    after.workspace = desk.workspace ∧ ¬ after.ReadsBack target key actions := by
  have kept : after.workspace = desk.workspace := by
    have same := keepsFiles_checkImported target key actions desk
    rwa [failed] at same
  refine ⟨kept, fun found => ?_⟩
  obtain ⟨binary, wrapper, entry, loads, selects, same⟩ := found.congr kept.symm
  obtain ⟨_, passed, _⟩ := run_checkImported ⟨wrapper, loads⟩ selects same
  cases passed.symm.trans failed

/-- With its sources read, an import that fails leaves the files as they were, or as the write left
them. The second happens only if the written file is not read back. -/
theorem exists_of_run_importScript_error
    (sources : Sources desk file listing key binary wrapper entry actions)
    (failed : (importScript file listing output key true).run desk = (.error fault, after)) :
    after.workspace = desk.workspace ∨ ∃ data packed,
      (binary.setActions entry actions).encode = .ok data ∧ pack wrapper data = .ok packed ∧
      desk.workspace.writeFile (Path.ofString output) packed = .ok after.workspace ∧
      ¬ after.ReadsBack (Path.ofString output) key actions := by
  obtain ⟨notes, line, run⟩ := run_importScript_eq sources
  rw [run] at failed
  obtain same | ⟨ended, asked, _, kept, warning⟩ := (keepsFiles_check _).exists_of_run_bind failed
  · exact Or.inl same
  obtain same | ⟨_, warned, _, still, saving⟩ :=
    (keepsFiles_warnUnended _ _).exists_of_run_bind warning
  · exact Or.inl (same.trans kept)
  have files : warned.workspace = desk.workspace := still.trans kept
  cases outcome : (saveBinary (binary.setActions entry actions) (Path.ofString output) wrapper).run
      warned with
  | mk result saved =>
      cases result with
      | error cause =>
          rw [run_bind_of_error outcome] at saving
          obtain ⟨_, rfl⟩ := Prod.mk.inj saving
          exact Or.inl ((workspace_of_run_saveBinary outcome).trans files)
      | ok done =>
          rw [run_bind_of_ok outcome, run_bind_of_ok (run_print _ _)] at saving
          obtain ⟨data, packed, changed, encoded, packs, written, rfl⟩ :=
            run_saveBinary_eq_ok_iff.mp outcome
          obtain ⟨checked, unread⟩ := not_readsBack_of_run_checkImported saving
          rw [files] at written
          refine Or.inr ⟨data, packed, encoded, packs, ?_, unread⟩
          rw [checked]
          exact written

/-- A script that fits is read back from the file that it is saved in, if the encoding stays below the
closing word. -/
theorem readsBack_of_save {data packed : Bytes}
    (sources : Sources desk file listing key binary wrapper entry actions)
    (encoded : (binary.setActions entry actions).encode = .ok data)
    (packs : pack wrapper data = .ok packed)
    (written : desk.workspace.writeFile target packed = .ok after.workspace)
    (script : Action.ScriptFits actions) (short : data.length < PointerTable.sentinel) :
    after.ReadsBack target key actions := by
  have saved := run_saveBinary_eq_ok_iff.mpr ⟨data, packed, _, encoded, packs, written, rfl⟩
  obtain ⟨_, same, loads⟩ := loads_of_save saved
  obtain rfl := Except.ok.inj (encoded.symm.trans same)
  have read := ObjectBinary.decode_of_encode (sources.wellFormed script) encoded short
  have reloads := (loads _ wrapper).mpr ⟨read, rfl⟩
  exact ⟨_, wrapper, entry, reloads.congr rfl,
    (binary.select_setActions entry actions key).trans sources.selects,
    ObjectBinary.actions_setActions_self (ObjectBinary.has_of_select sources.selects) actions⟩

/-- Once the edited binary is saved, the files stay as the write left them, whatever the check says. -/
theorem workspace_of_run_importScript {data packed : Bytes} {changed : Workspace}
    (sources : Sources desk file listing key binary wrapper entry actions)
    (asked : ∃ ended, endsInScriptEnd actions = .ok ended)
    (encoded : (binary.setActions entry actions).encode = .ok data)
    (packs : pack wrapper data = .ok packed)
    (written : desk.workspace.writeFile (Path.ofString output) packed = .ok changed) :
    ((importScript file listing output key true).run desk).2.workspace = changed := by
  obtain ⟨notes, line, run⟩ := run_importScript_eq sources
  obtain ⟨ended, asked⟩ := asked
  obtain ⟨printed, warned⟩ := run_warnUnended (Path.ofString listing) ended
    { desk with notes := notes }
  have saved : (saveBinary (binary.setActions entry actions) (Path.ofString output) wrapper).run
      { desk with notes := notes, printed := printed } = (.ok (),
        { desk with workspace := changed, notes := notes, printed := printed }) :=
    run_saveBinary_eq_ok_iff.mpr ⟨data, packed, changed, encoded, packs, written, rfl⟩
  rw [run, run_bind_of_ok (run_check asked), run_bind_of_ok warned, run_bind_of_ok saved,
    run_bind_of_ok (run_print _ _)]
  exact keepsFiles_checkImported _ _ _ _

/-- An import has saved the edited binary, and it is not read back: the file at the output path is the
only one that has changed. This happens to no script that fits, as long as the encoding stays below
the closing word. -/
structure UnreadSave (desk after : Desk) (file listing output key : String) (binary : ObjectBinary)
    (wrapper : Option Wrapper) (entry : EntryRef) (actions : List Action) (data packed : Bytes) :
    Prop where
  sources : Sources desk file listing key binary wrapper entry actions
  encodes : (binary.setActions entry actions).encode = .ok data
  packs : pack wrapper data = .ok packed
  writes : desk.workspace.writeFile (Path.ofString output) packed = .ok after.workspace
  others : ∀ place, desk.workspace.locate (Path.ofString output) ≠ .ok place →
    after.workspace.itemAt place = desk.workspace.itemAt place
  unread : ¬ after.ReadsBack (Path.ofString output) key actions
  misfit : data.length < PointerTable.sentinel → ¬ Action.ScriptFits actions

/-- The files after an import that has failed are the ones before it, unless a save was not read back. -/
theorem unreadSave_of_run_importScript
    (failed : (importScript file listing output key true).run desk = (.error fault, after)) :
    after.workspace = desk.workspace ∨ ∃ binary wrapper entry actions data packed,
      UnreadSave desk after file listing output key binary wrapper entry actions data packed := by
  obtain same | ⟨binary, wrapper, entry, actions, sources⟩ :=
    exists_sources_of_run_importScript failed
  · exact Or.inl same
  obtain same | ⟨data, packed, encoded, packs, written, unread⟩ :=
    exists_of_run_importScript_error sources failed
  · exact Or.inl same
  refine Or.inr ⟨binary, wrapper, entry, actions, data, packed, sources, encoded, packs, written, ?_,
    unread, ?_⟩
  · intro place elsewhere
    obtain ⟨location, located, _, changed⟩ := Workspace.writeFile_eq_ok_iff.mp written
    have apart : place ≠ location := by
      rintro rfl
      exact elsewhere located
    rw [changed]
    exact Workspace.itemAt_put_of_ne apart _ _
  · intro short script
    exact unread (readsBack_of_save sources encoded packs written script short)

end Importing

section CommandLine

variable {workspace : Workspace} {arguments files : List String} {command : String}

/-- The command line of an import, once its words are known. -/
theorem performWords_import {options : Options} {file listing output : String}
    {others : List String} (words : options.words = command :: file :: listing :: output :: others)
    (named : Text.foldCase command = "script-import") :
    performWords options =
      finish (importScript file listing output options.key options.verified) := by
  rw [performWords, words]
  dsimp only
  rw [named]
  rfl

theorem performWords_import_of_short {options : Options} (words : options.words = command :: files)
    (named : Text.foldCase command = "script-import") (short : files.length < 3) :
    performWords options = finish (print usage) := by
  rw [performWords, words]
  dsimp only
  rw [named]
  match files, short with
  | [], _ => rfl
  | [_], _ => rfl
  | [_, _], _ => rfl

/-- What is left of a command line, by what its job comes to. -/
theorem run_eq (workspace : Workspace) (arguments : List String) {result : Except Fault Bool}
    {desk : Desk}
    (done : (performWords (Options.read {} arguments)).run { workspace := workspace } =
      (result, desk)) :
    (run workspace arguments).workspace = desk.workspace ∧
      (run workspace arguments).status = match result with
        | .ok true => 0
        | _ => 1 := by
  have step : (performWords (Options.read {} arguments)).run.run { workspace := workspace } =
      (result, desk) := done
  simp only [run, step]
  cases result with
  | error fault => exact ⟨rfl, rfl⟩
  | ok well => cases well <;> exact ⟨rfl, rfl⟩

theorem run_finish_of_ok {job : Job Unit} (done : job.run desk = (.ok (), after)) :
    (finish job).run desk = (.ok true, after) := by
  rw [finish, run_bind_of_ok done]
  rfl

/-- The files and the status that an import on the command line ends with. -/
theorem run_import_eq {file listing output : String} {others : List String}
    {result : Except Fault Unit}
    (words : (Options.read {} arguments).words = command :: file :: listing :: output :: others)
    (named : Text.foldCase command = "script-import")
    (done : (importScript file listing output (Options.read {} arguments).key
      (Options.read {} arguments).verified).run { workspace := workspace } = (result, after)) :
    (run workspace arguments).workspace = after.workspace ∧
      (run workspace arguments).status = match result with
        | .ok _ => 0
        | .error _ => 1 := by
  have performs := performWords_import words named
  cases result with
  | ok _ =>
      have finished := run_finish_of_ok done
      rw [← performs] at finished
      exact run_eq workspace arguments finished
  | error fault =>
      have finished := run_bind_of_error done fun _ => (pure true : Job Bool)
      rw [finish] at performs
      rw [← performs] at finished
      exact run_eq workspace arguments finished

/-- An import with too few files prints the usage text. -/
theorem run_import_of_short (words : (Options.read {} arguments).words = command :: files)
    (named : Text.foldCase command = "script-import") (short : files.length < 3) :
    (run workspace arguments).status = 0 := by
  have finished := run_finish_of_ok (run_print usage { workspace := workspace })
  rw [← performWords_import_of_short words named short] at finished
  exact (run_eq workspace arguments finished).2

/-- A checked import on the command line, with any words and options: if it ends in an error, every
file is as it was, or the edited binary was saved and is not read back. -/
theorem run_import_failed (words : (Options.read {} arguments).words = command :: files)
    (named : Text.foldCase command = "script-import")
    (verified : (Options.read {} arguments).verified = true)
    (failed : (run workspace arguments).status ≠ 0) :
    (run workspace arguments).workspace = workspace ∨
      ∃ file listing output others binary wrapper entry actions data packed,
        files = file :: listing :: output :: others ∧
        UnreadSave { workspace := workspace } { workspace := (run workspace arguments).workspace }
          file listing output (Options.read {} arguments).key binary wrapper entry actions data
            packed := by
  match files, words with
  | file :: listing :: output :: others, words =>
      cases done : (importScript file listing output (Options.read {} arguments).key
          (Options.read {} arguments).verified).run { workspace := workspace } with
      | mk result after =>
          obtain ⟨left, status⟩ := run_import_eq words named done
          cases result with
          | ok _ => exact absurd status failed
          | error fault =>
              rw [verified] at done
              rw [left]
              obtain same | ⟨binary, wrapper, entry, actions, data, packed, saved⟩ :=
                unreadSave_of_run_importScript done
              · exact Or.inl same
              · exact Or.inr ⟨file, listing, output, others, binary, wrapper, entry, actions, data,
                  packed, rfl, { saved with unread := fun found => saved.unread (found.congr rfl) }⟩
  | [], words => exact absurd (run_import_of_short words named (by simp)) failed
  | [_], words => exact absurd (run_import_of_short words named (by simp)) failed
  | [_, _], words => exact absurd (run_import_of_short words named (by simp)) failed

/-- The file of `small`, and a listing without a line. -/
def blankDesk : Desk where
  workspace := ⟨[(["in.bin"], .file ObjectBinary.small.bytes), (["in.txt"], .file [])]⟩

theorem blankDesk_readFile :
    blankDesk.workspace.readFile (Path.ofString "in.bin") = .ok ObjectBinary.small.bytes := by
  have located (workspace : Workspace) :
      workspace.locate (Path.ofString "in.bin") = .ok ["in.bin"] := by cbv
  exact Workspace.readFile_eq_ok_iff.mpr ⟨_, located _, rfl⟩

theorem blankDesk_sources :
    Sources blankDesk "in.bin" "in.txt" "0" .small none (.object 0) [] where
  loads :=
    Desk.loads_iff.mpr ⟨_, _, blankDesk_readFile,
      Wrapper.contents_of_detect (ObjectBinary.detect_bytes _),
      ObjectBinary.decode_bytes ObjectBinary.small_wellFormed ObjectBinary.short_small,
      ObjectBinary.detect_bytes _⟩
  selects := by cbv
  parses := by
    have located (workspace : Workspace) :
        workspace.locate (Path.ofString "in.txt") = .ok ["in.txt"] := by cbv
    exact ⟨[], "", Workspace.readFile_eq_ok_iff.mpr ⟨_, located _, rfl⟩, Text.ofUtf8_utf8 "",
      by decide +kernel⟩

/-- A binary whose object has no actions is encoded, but not as it was. -/
theorem exists_encode_emptied : ∃ data, (ObjectBinary.small.setActions (.object 0) []).encode =
    .ok data ∧ data ≠ ObjectBinary.small.bytes := by
  have found : (match (ObjectBinary.small.setActions (.object 0) []).encode with
      | .ok data => data != ObjectBinary.small.bytes
      | .error _ => false) = true := by decide +kernel
  split at found
  next data encoded => exact ⟨data, encoded, by simpa using found⟩
  next => cases found

/-- The blank listing is imported over the file that it is imported into. -/
def blankArguments : List String :=
  ["script-import", "in.bin", "in.txt", "in.bin", "--entry", "0"]

theorem run_blank : (run blankDesk.workspace blankArguments).status = 1 ∧
    ∃ data, data ≠ ObjectBinary.small.bytes ∧
      (run blankDesk.workspace blankArguments).workspace.readFile (Path.ofString "in.bin") =
        .ok data := by
  obtain ⟨data, encoded, other⟩ := exists_encode_emptied
  obtain ⟨location, located, found⟩ := Workspace.readFile_eq_ok_iff.mp blankDesk_readFile
  have writable : blankDesk.workspace.Writable (Path.ofString "in.bin") :=
    ⟨location, located, by simp [found]⟩
  obtain ⟨changed, written⟩ := writable.exists_writeFile data
  have words : (Options.read {} blankArguments).words =
      ["script-import", "in.bin", "in.txt", "in.bin"] := rfl
  have files := workspace_of_run_importScript blankDesk_sources ⟨false, rfl⟩ encoded
    (rfl : pack none data = .ok data) written
  cases done : (importScript "in.bin" "in.txt" "in.bin" "0" true).run blankDesk with
  | mk result after =>
      rw [done] at files
      cases result with
      | ok _ =>
          -- only a script comes back, and no script is blank
          obtain ⟨front, last, none, _⟩ := scriptFits_of_run_importScript blankDesk_sources done
          exact absurd none (by simp)
      | error fault =>
          obtain ⟨left, status⟩ : (run blankDesk.workspace blankArguments).workspace =
              after.workspace ∧ (run blankDesk.workspace blankArguments).status = 1 :=
            run_import_eq words (by cbv) done
          refine ⟨status, data, other, ?_⟩
          rw [left, files, Workspace.readFile_of_writeFile written]

/-- The import of a blank listing over its own input fails with its check on, and the input is lost. -/
theorem import_loses_input :
    (Options.read {} blankArguments).verified = true ∧
      (run blankDesk.workspace blankArguments).status = 1 ∧
      blankDesk.workspace.readFile (Path.ofString "in.bin") = .ok ObjectBinary.small.bytes ∧
      (run blankDesk.workspace blankArguments).workspace.readFile (Path.ofString "in.bin") ≠
        .ok ObjectBinary.small.bytes := by
  obtain ⟨failed, data, other, held⟩ := run_blank
  refine ⟨rfl, failed, blankDesk_readFile, ?_⟩
  rw [held]
  exact fun same => other (Except.ok.inj same)

theorem run_import_failed_blank :
    (run blankDesk.workspace blankArguments).status ≠ 0 ∧
      ∃ file listing output others binary wrapper entry actions data packed,
        ["in.bin", "in.txt", "in.bin"] = file :: listing :: output :: others ∧
        UnreadSave blankDesk { workspace := (run blankDesk.workspace blankArguments).workspace }
          file listing output "0" binary wrapper entry actions data packed := by
  obtain ⟨status, data, other, held⟩ := run_blank
  have failed : (run blankDesk.workspace blankArguments).status ≠ 0 := by
    rw [status]
    decide
  refine ⟨failed, ?_⟩
  have names : (Options.read {} blankArguments).words =
      "script-import" :: ["in.bin", "in.txt", "in.bin"] := rfl
  obtain same | saved := run_import_failed names (by cbv) rfl failed
  · rw [same, blankDesk_readFile] at held
    exact absurd (Except.ok.inj held).symm other
  · exact saved

end CommandLine

end FighterData.Command
