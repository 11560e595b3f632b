/-! Small letters. Key words are ASCII, so only the characters count whose small form is an ASCII
letter: the ASCII capitals and the Kelvin sign. -/
namespace FighterData.Text

def foldLetter (c : Char) : Char :=
  if c = '\u212A' then 'k' else c.toLower

def foldCase (text : String) : String :=
  String.ofList (text.toList.map foldLetter)

end FighterData.Text
