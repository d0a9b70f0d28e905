import Mathlib.Data.List.Basic

/-! The ways an expression names a node, and renaming in them
(`packages/workflow/src/node-reference-parser-utils.ts`). The regular
expressions are matchers that return what follows the match; text is a list of
characters. -/

namespace NodeAutomation.AccessPatterns

abbrev Text := List Char

def startsWith? : (word : Text) → Text → Option Text
  | [], text => some text
  | _ :: _, [] => none
  | c :: word, d :: text => if c = d then startsWith? word text else none

def includes (text word : Text) : Bool :=
  text.tails.any fun rest => (startsWith? word rest).isSome

def firstOf (words : List Text) (text : Text) : Option (Text × Text) :=
  words.findSome? fun word => (startsWith? word text).map (word, ·)

structure AccessMatch where
  opening : Text
  name : Text
  closing : Text
  rest : Text
  deriving DecidableEq

def AccessMatch.text (found : AccessMatch) : Text := found.opening ++ found.name ++ found.closing

structure AccessPattern where
  checkPattern : Text
  openings : List Text
  closings : List Text
  deriving DecidableEq

/-- `names` gives, in the order of the alternatives, a name the text starts
with and what follows it; the first that is followed by a closing counts. -/
def AccessPattern.exec (pattern : AccessPattern) (names : Text → List (Text × Text))
    (text : Text) : Option AccessMatch :=
  match firstOf pattern.openings text with
  | none => none
  | some (opening, afterOpening) =>
    (names afterOpening).findSome? fun (name, afterName) =>
      (firstOf pattern.closings afterName).map fun (closing, rest) =>
        ⟨opening, name, closing, rest⟩

def callPattern : AccessPattern where
  checkPattern := "$(".toList
  openings := ["$('".toList, "$(\"".toList]
  closings := ["')".toList, "\")".toList]

def nodeBracketPattern : AccessPattern where
  checkPattern := "$node[".toList
  openings := ["$node['".toList, "$node[\"".toList]
  closings := ["']".toList, "\"]".toList]

def nodeDotPattern : AccessPattern where
  checkPattern := "$node.".toList
  openings := ["$node.".toList]
  closings := [".".toList, []]

def itemsPattern : AccessPattern where
  checkPattern := "$items(".toList
  openings := ["$items('".toList, "$items(\"".toList]
  closings := ["',".toList, "\",".toList, "')".toList, "\")".toList]

def ACCESS_PATTERNS : List AccessPattern :=
  [callPattern, nodeBracketPattern, nodeDotPattern, itemsPattern]

/-- `text.replace(regexp, ..)` with the flag `g`: `matcher` gives the length of
a match at the front and what replaces it; `skip` characters of the last match
are still to be passed over. -/
def replaceFrom (matcher : Text → Option (Nat × Text)) : (skip : Nat) → Text → Text
  | _, [] => []
  | skip + 1, _ :: text => replaceFrom matcher skip text
  | 0, c :: text => match matcher (c :: text) with
    | none => c :: replaceFrom matcher 0 text
    | some (length, replacement) => replacement ++ replaceFrom matcher (length - 1) text

def hasDotNotationBannedChar (nodeName : Text) : Bool :=
  (match nodeName with
    | [] => false
    | c :: _ => c.isDigit) ||
  nodeName.any fun c => c ∈ "\\ `!@#$%^&*()_+-=[]\x7b\x7d;':\"|,.<>?~".toList

/-- The regular expression of `prepareOldNodeName`: a backslash of the name is
written twice, and a quote may be escaped. -/
def matchOldName : (name : Text) → Text → Option Text
  | [], text => some text
  | c :: name, text =>
    if c = '\\' then (startsWith? ['\\', '\\'] text).bind (matchOldName name)
    else if c = '"' ∨ c = '\'' then
      match startsWith? ['\\', c] text with
      | some rest => matchOldName name rest
      | none => (startsWith? [c] text).bind (matchOldName name)
    else (startsWith? [c] text).bind (matchOldName name)

/-- What `prepareNewNodeName` leaves once `replace` has read its dollar signs. -/
def prepareNewNodeName (nodeName : Text) : Text :=
  nodeName.flatMap fun c => if c = '\\' ∨ c = '"' ∨ c = '\'' then ['\\', c] else [c]

/-- The callback of `$node.`: any character, the new name and a blank or a dot
become the name in brackets. -/
def nodeDotCallback (expression newName : Text) : Text :=
  if hasDotNotationBannedChar newName then
    replaceFrom (fun text => match text with
      | [] => none
      | c :: text =>
        if c ∈ ['\n', '\r', '\u2028', '\u2029'] then none
        else ((startsWith? newName text).bind (firstOf [[' '], ['.']])).map fun (closing, _) =>
          (newName.length + 2, "[\"".toList ++ prepareNewNodeName newName ++ "\"]".toList ++ closing))
      0 expression
  else expression

def applyAccessPattern (previousName newName expression : Text) (pattern : AccessPattern) : Text :=
  if includes expression pattern.checkPattern then
    let names := fun text =>
      ((matchOldName previousName text).map fun rest =>
        (text.take (text.length - rest.length), rest)).toList
    let renamed := replaceFrom (fun text => (pattern.exec names text).map fun found =>
      (found.text.length, found.opening ++ prepareNewNodeName newName ++ found.closing)) 0 expression
    if pattern = nodeDotPattern then nodeDotCallback renamed newName else renamed
  else expression

def applyAccessPatterns (expression previousName newName : Text) : Text :=
  ACCESS_PATTERNS.foldl (applyAccessPattern previousName newName) expression

example : applyAccessPatterns "=$('A').first() + $node[\"A\"].json".toList "A".toList "B'".toList =
    "=$('B\\'').first() + $node[\"B\\'\"].json".toList := by decide +kernel

end NodeAutomation.AccessPatterns
