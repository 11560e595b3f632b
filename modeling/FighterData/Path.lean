import FighterData.Text.Utf8

/-! Paths as written: an anchor, empty for a relative path, and parts. Empty parts and single dots
are dropped; double dots stay, since only the folders there tell what they mean. -/
namespace FighterData

structure Path where
  anchor : String
  parts : List String
deriving DecidableEq, Repr

namespace Path

/-- Two slashes at the front are an anchor of their own, more of them count as one. -/
def anchorOf : List Char → String
  | '/' :: '/' :: '/' :: _ => "/"
  | '/' :: '/' :: _ => "//"
  | '/' :: _ => "/"
  | _ => ""

def partsFrom (current : List Char) : List Char → List (List Char)
  | [] => [current.reverse]
  | c :: rest => if c = '/' then current.reverse :: partsFrom [] rest else partsFrom (c :: current) rest

def partsOf (text : List Char) : List String :=
  ((partsFrom [] text).filter fun part => part ≠ [] && part ≠ ['.']).map String.ofList

def ofString (text : String) : Path :=
  ⟨anchorOf text.toList, partsOf text.toList⟩

/-- The path in its shortest writing; the path without parts is a dot. -/
def text (path : Path) : String :=
  if path.anchor.isEmpty && path.parts.isEmpty then "."
  else path.anchor ++ String.intercalate "/" path.parts

def name (path : Path) : String :=
  path.parts.getLast?.getD ""

def parent (path : Path) : Path :=
  { path with parts := path.parts.dropLast }

/-- The path behind a folder; an anchored one does not depend on the folder. -/
def join (folder : Path) (text : String) : Path :=
  let behind := ofString text
  if behind.anchor.isEmpty then { folder with parts := folder.parts ++ behind.parts } else behind

end Path

end FighterData
