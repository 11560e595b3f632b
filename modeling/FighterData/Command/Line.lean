import FighterData.Command.Archives
import FighterData.Command.Binaries
import FighterData.Command.Palettes
import FighterData.Command.Scripts
import FighterData.Image.Png
import FighterData.Text.Case

/-! The command line. Options may stand anywhere; what remains names the command and its files, and
more files than a command takes are ignored. -/
namespace FighterData.Command

structure Options where
  words : List String := []
  key : String := "player"
  verified : Bool := true
  verbose : Bool := false
deriving DecidableEq, Repr

namespace Options

def add (options : Options) (argument : String) : Options :=
  if argument = "--no-verify" then { options with verified := false }
  else if argument = "--verbose" then { options with verbose := true }
  else { options with words := options.words ++ [argument] }

/-- Of several keys the last one counts. An `--entry` with nothing behind it is an ordinary word. -/
def read (options : Options) : List String → Options
  | [] => options
  | [argument] => options.add argument
  | argument :: next :: rest =>
      if argument = "--entry" then read { options with key := next } rest
      else read (options.add argument) (next :: rest)

end Options

def usage : String := "
GGXX Tools - Tools for the XX-series object binaries

Usage:
  Object Binaries:
    ggxx-tools obj-info <file>
    ggxx-tools obj-verify <file>
    ggxx-tools batch-verify <folder>

  Scripts:
    ggxx-tools script-export <file> <output.txt> [--entry player|N]
    ggxx-tools script-import <file> <script.txt> <output> [--entry player|N] [--no-verify]

  Palettes:
    ggxx-tools pal-export <file> <png_folder>
    ggxx-tools pal-import <file> <png_folder> <output>

  Compression / Archives:
    ggxx-tools zcmp-unpack <input> <output>
    ggxx-tools zcmp-pack <input> <output>
    ggxx-tools pac-extract <file.pac> <output_folder>
    ggxx-tools pac-get <file.pac> <name|id> <output>

Options:
  --entry      Script to work on: 'player' (default) or an object index
  --no-verify  Skip decoding the rebuilt file after script-import
  --verbose    Print structural debug output while decoding

Note: ZCMP/DFASFPAC compressed object binaries are unpacked automatically
      and written back with the same compression.
"

def finish (job : Job Unit) : Job Bool := do
  job
  return true

/-- Does what a command word asks for, and tells whether all is well. Words that make no command
get the usage text. -/
def perform (options : Options) (command : String) (files : List String) : Job Bool :=
  match command, files with
  | "obj-info", file :: _ => finish (showInfo file)
  | "obj-verify", file :: _ => verify file
  | "batch-verify", folder :: _ => finish (verifyFolder folder)
  | "script-export", file :: output :: _ => finish (exportScript file output options.key)
  | "script-import", file :: listing :: output :: _ =>
      finish (importScript file listing output options.key options.verified)
  | "pal-export", file :: folder :: _ => finish (exportPalettes Png.files file folder)
  | "pal-import", file :: folder :: output :: _ =>
      finish (importPalettes Png.files file folder output)
  | "zcmp-unpack", input :: output :: _ => finish (unpackFile input output)
  | "zcmp-pack", input :: output :: _ => finish (packFile input output)
  | "pac-extract", file :: folder :: _ => finish (extractAll file folder)
  | "pac-get", file :: key :: output :: _ => finish (extractOne file key output)
  | _, _ => finish (print usage)

def performWords (options : Options) : Job Bool :=
  match options.words with
  | [] => finish (print usage)
  | command :: files => perform options (Text.foldCase command) files

/-- What is left of a command: the files, the output, the notes if they were asked for, the exit
status, and the fault that ended it. -/
structure Report where
  workspace : Workspace
  printed : String
  notes : List Note
  status : Nat
  fault : Option Fault

/-- Runs a command. A fault is printed behind everything else. -/
def run (workspace : Workspace) (arguments : List String) : Report :=
  let options := Options.read {} arguments
  let (result, desk) := (performWords options).run.run { workspace := workspace }
  let notes := if options.verbose then desk.notes else []
  match result with
  | .ok well => ⟨desk.workspace, desk.printed, notes, if well then 0 else 1, none⟩
  | .error fault =>
      ⟨desk.workspace, desk.printed ++ "Error: " ++ fault.message ++ "\n", notes, 1, some fault⟩

end FighterData.Command
