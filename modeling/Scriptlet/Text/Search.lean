/-! Looking for one text inside another. -/

namespace Scriptlet.Text

/-- Whether `needle` occurs in `text`; the empty text occurs everywhere. -/
def occursIn (needle : List Char) : List Char → Bool
  | [] => needle.isEmpty
  | c :: rest => needle.isPrefixOf (c :: rest) || occursIn needle rest

def contains (text needle : String) : Bool :=
  occursIn needle.toList text.toList

def startsWith (text lead : String) : Bool :=
  lead.toList.isPrefixOf text.toList

def endsWith (text tail : String) : Bool :=
  tail.toList.isSuffixOf text.toList

/-- The texts with `separator` between each two. -/
def join (separator : String) : List String → String
  | [] => ""
  | [s] => s
  | s :: more => s ++ separator ++ join separator more

end Scriptlet.Text
