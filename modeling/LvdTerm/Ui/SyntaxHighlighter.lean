import LvdTerm.Lib.Scanning

/-!
# SyntaxHighlighter

The scanners that colour one line of the SFTP file editor: `scanCode` for the languages with a `SyntaxConfig`, `highlightXml`, and what
`highlightBlock` does with them. A line is its UTF-16 units and a position a natural number; a block of QTextDocument is shorter than
an `int` can say. A read outside the line, and a loop that does not end, have no result. The colours, the tables of words and the
choice of the language are left out.
-/
namespace LvdTerm.Ui.SyntaxHighlighter

open Lib.Scanning

abbrev QChar := UInt16

abbrev QString := List QChar

def latin1 (c : Char) : QChar := UInt16.ofNat c.toNat

def literal (text : String) : QString := text.toList.map latin1

/-- The classes QChar knows. -/
structure QCharClasses where
  isSpace : QChar → Bool
  isLetter : QChar → Bool
  isDigit : QChar → Bool
  isLetterOrNumber : QChar → Bool

/-! ## Block states, carried from one line to the next -/

def kNormal : Int := 0
def kBlockComment : Int := 1
def kTripleSingle : Int := 2
def kTripleDouble : Int := 3
def kBacktick : Int := 4
def kXmlComment : Int := 5
def kXmlTag : Int := 6

structure SyntaxConfig where
  control : List QString
  keywords : List QString
  types : List QString
  /-- Coloured like function calls. -/
  builtins : List QString
  constants : List QString
  lineComments : List QString
  blockStart : QString
  blockEnd : QString
  /-- Characters that open a single-line string. -/
  quotes : QString
  tripleQuotes : Bool
  multilineBacktick : Bool
  /-- `#` only starts a comment after whitespace. -/
  commentNeedsSpace : Bool
  /-- A quote only opens a string at a word start. -/
  quoteNeedsBoundary : Bool
  shellVars : Bool
  decorators : Bool
  bangMacros : Bool
  keyedStrings : Bool
  preprocessor : Bool

inductive Format where
  | keyword | control | type | function | constant | variable | string | comment | number
  deriving DecidableEq

abbrev Ranges := List (Range Format)

def setFormat (start : Nat) (count : Int) (format : Format) : Ranges := [⟨start, count, format⟩]

inductive Language where
  | none | shell | python | c | java | javaScript | go | rust | json | yaml | ini | xml
  deriving DecidableEq

/-- What the regular expressions find in a line: where a section ends, where a key starts and ends, and behind which colon. -/
structure Matches where
  sectionRe : QString → Option Nat
  keyRe : QString → Option (Nat × Nat)
  yamlKeyRe : QString → Option (Nat × Nat × Nat)
  section_le : ∀ {text length}, sectionRe text = some length → length ≤ text.length
  key_le : ∀ {text start stop}, keyRe text = some (start, stop) → start ≤ stop ∧ stop ≤ text.length
  yamlKey_le : ∀ {text start stop colon}, yamlKeyRe text = some (start, stop, colon) →
    start ≤ stop ∧ stop ≤ colon ∧ colon ≤ text.length

section Scanner

variable (chars : QCharClasses) (config : SyntaxConfig) (text : QString)

def isIdentChar (c : QChar) : Bool := chars.isLetterOrNumber c || c = latin1 '_'

/-- The lambda of `scanCode`: an empty marker starts nothing. -/
def startsWith (i : Nat) (needle : QString) : Option Bool := if needle = [] then some false else continues text i needle

/-! ## scanCode -/

structure Cursor where
  i : Nat
  state : Int
  previousWord : QString

abbrev Step := Turn Format Cursor Int

/-- A branch of the loop: `none` inside where it is not taken. -/
abbrev Branch := Option (Option Step)

/-- The branches in their order, up to the one that is taken. -/
def firstOf : List Branch → Branch
  | [] => some none
  | none :: _ => none
  | some (some step) :: _ => some (some step)
  | some none :: rest => firstOf rest

def endMarker (state : Int) : QString :=
  if state = kBlockComment then config.blockEnd
  else if state = kTripleSingle then literal "'''"
  else if state = kTripleDouble then literal "\"\"\""
  else literal "`"

/-- In a comment or string that an earlier line, or this one, has left open. -/
def carried (s : Cursor) : Step :=
  let marker := endMarker config s.state
  let format := if s.state = kBlockComment then Format.comment else Format.string
  match indexOf text marker s.i with
  | none => .stop (setFormat s.i (text.length - s.i) format) s.state
  | some e => .next (setFormat s.i (e + marker.length - s.i) format) { s with i := e + marker.length, state := kNormal }

/-- The loop over `config.lineComments`. -/
def opensComment (i : Nat) : List QString → Option Bool
  | [] => some false
  | marker :: rest => do
    let found ← startsWith text i marker
    if found then
      if config.commentNeedsSpace ∧ 0 < i then
        let before ← text[i - 1]?
        if chars.isSpace before then some true else opensComment i rest
      else some true
    else opensComment i rest

def lineComment (s : Cursor) : Branch := do
  let opens ← opensComment chars config text s.i config.lineComments
  if opens then some (some (.stop (setFormat s.i (text.length - s.i) .comment) kNormal)) else some none

def blockComment (s : Cursor) : Branch := do
  let opens ← startsWith text s.i config.blockStart
  if opens then
    some (some (.next (setFormat s.i config.blockStart.length .comment)
      { s with i := s.i + config.blockStart.length, state := kBlockComment }))
  else some none

def tripleString (s : Cursor) (ch : QChar) : Branch :=
  if config.tripleQuotes then do
    let double ← startsWith text s.i (literal "\"\"\"")
    let single ← startsWith text s.i (literal "'''")
    if double || single then
      let state := if ch = latin1 '"' then kTripleDouble else kTripleSingle
      some (some (.next (setFormat s.i 3 .string) { s with i := s.i + 3, state }))
    else some none
  else some none

def backtickString (s : Cursor) (ch : QChar) : Branch :=
  if config.multilineBacktick ∧ ch = latin1 '`' then
    some (some (.next (setFormat s.i 1 .string) { s with i := s.i + 1, state := kBacktick }))
  else some none

def opensString (i : Nat) (ch : QChar) : Option Bool :=
  if config.quotes.contains ch then
    if ¬ config.quoteNeedsBoundary ∨ i = 0 then some true
    else do
      let before ← text[i - 1]?
      some (chars.isSpace before || (literal "[\x7b,:(").contains before)
  else some false

/-- To the closing quote, past what is escaped. -/
def closingQuote (ch : QChar) (j : Nat) : Option Nat :=
  if j < text.length then do
    let c ← text[j]?
    if c = ch then some j
    else if c = latin1 '\\' then closingQuote ch (j + 2)
    else closingQuote ch (j + 1)
  else some j
termination_by text.length - j

/-- The string is the key of a JSON object. -/
def isKey (j stop : Nat) : Option Bool :=
  if config.keyedStrings ∧ j < text.length then do
    let k ← skipWhile chars.isSpace text stop
    holdsAt (· = latin1 ':') text k
  else some false

def quotedString (s : Cursor) (ch : QChar) : Branch := do
  let opens ← opensString chars config text s.i ch
  if opens then
    let j ← closingQuote text ch (s.i + 1)
    let stop := min (j + 1) text.length
    let key ← isKey chars config text j stop
    some (some (.next (setFormat s.i (stop - s.i) (if key then .variable else .string)) { s with i := stop, previousWord := [] }))
  else some none

def atWordStart (i : Nat) : Option Bool :=
  if i = 0 then some true
  else do
    let before ← text[i - 1]?
    some (!isIdentChar chars before)

def number (s : Cursor) (ch : QChar) : Branch :=
  if chars.isDigit ch then do
    let start ← atWordStart chars text s.i
    if start then
      let j ← skipWhile (fun c => chars.isLetterOrNumber c || c = latin1 '.' || c = latin1 '_') text (s.i + 1)
      some (some (.next (setFormat s.i (j - s.i) .number) { s with i := j, previousWord := [] }))
    else some none
  else some none

/-- `call` where a bracket follows, `bang` where it is the name of a macro. -/
def wordFormat (word previousWord : QString) (call bang : Bool) : Option Format :=
  if config.control.contains word then some .control
  else if config.keywords.contains word then some .keyword
  else if config.types.contains word then some .type
  else if config.builtins.contains word then some .function
  else if config.constants.contains word then some .constant
  else if [literal "class", literal "struct", literal "enum", literal "interface", literal "namespace", literal "trait"].contains
    previousWord then some .type
  else if call then some .function
  else if config.bangMacros && bang then some .function
  else none

def word (s : Cursor) (ch : QChar) : Branch :=
  if chars.isLetter ch || ch = latin1 '_' || (ch = latin1 '$' && !config.shellVars) then do
    let j ← skipWhile (fun c => isIdentChar chars c || (c = latin1 '$' && !config.shellVars)) text (s.i + 1)
    let word := (text.drop s.i).take (j - s.i)
    let next ← skipWhile chars.isSpace text j
    let call ← holdsAt (· = latin1 '(') text next
    let bang ← holdsAt (· = latin1 '!') text j
    let equals ← holdsAt (· = latin1 '=') text (j + 1)
    let ranges := match wordFormat config word s.previousWord call (bang && !equals) with
      | some format => setFormat s.i (j - s.i) format
      | none => []
    some (some (.next ranges { s with i := j, previousWord := word }))
  else some none

def decorator (s : Cursor) (ch : QChar) : Branch :=
  if config.decorators ∧ ch = latin1 '@' then do
    let letter ← holdsAt chars.isLetter text (s.i + 1)
    if letter then
      let j ← skipWhile (fun c => isIdentChar chars c || c = latin1 '.') text (s.i + 1)
      some (some (.next (setFormat s.i (j - s.i) .function) { s with i := j, previousWord := [] }))
    else some none
  else some none

/-- Behind the next such character, or at the end of the line. -/
def behind (ch : QChar) (j : Nat) : Nat :=
  match indexOf text [ch] j with
  | none => text.length
  | some close => close + 1

/-- Where the variable whose name would start at `j` ends. -/
def variableEnd (j : Nat) : Option Nat := do
  let next ← text[j]?
  if next = latin1 '\x7b' then some (behind text (latin1 '\x7d') j)
  else if chars.isLetter next || next = latin1 '_' then skipWhile (isIdentChar chars) text j
  else if (literal "@#?*!$-0123456789").contains next then some (j + 1)
  else some j

def shellVariable (s : Cursor) (ch : QChar) : Branch :=
  if config.shellVars ∧ ch = latin1 '$' ∧ s.i + 1 < text.length then do
    let j ← variableEnd chars text (s.i + 1)
    if s.i + 1 < j then some (some (.next (setFormat s.i (j - s.i) .variable) { s with i := j, previousWord := [] })) else some none
  else some none

def normal (s : Cursor) : Option Step := do
  let ch ← text[s.i]?
  let taken ← firstOf [lineComment chars config text s, blockComment config text s, tripleString config text s ch,
    backtickString config s ch, quotedString chars config text s ch, number chars text s ch, word chars config text s ch,
    decorator chars config text s ch, shellVariable chars config text s ch]
  some (taken.getD (.next [] { s with i := s.i + 1, previousWord := if chars.isSpace ch then s.previousWord else [] }))

def turn (s : Cursor) : Option Step :=
  if s.i < text.length then
    if s.state ≠ kNormal then some (carried config text s) else normal chars config text s
  else some (.stop [] s.state)

/-- What is marked, and the state to carry to the next line. -/
def scanCode (fuel start : Nat) (state : Int) : Option (Ranges × Int) := scan (turn chars config text) fuel ⟨start, state, []⟩

/-! ## highlightXml -/

structure XmlCursor where
  i : Nat
  state : Int

abbrev XmlStep := Turn Format XmlCursor Int

def isNameChar (c : QChar) : Bool := chars.isLetterOrNumber c || (literal ":-_.").contains c

def xmlComment (s : XmlCursor) : XmlStep :=
  match indexOf text (literal "-->") s.i with
  | none => .stop (setFormat s.i (text.length - s.i) .comment) kXmlComment
  | some e => .next (setFormat s.i (e + 3 - s.i) .comment) ⟨e + 3, kNormal⟩

def xmlText (s : XmlCursor) : Option XmlStep :=
  match indexOf text [latin1 '<'] s.i with
  | none => some (.stop [] kNormal)
  | some lt => do
    let comment ← continues text lt (literal "<!--")
    if comment then some (.next (setFormat lt 4 .comment) ⟨lt + 4, kXmlComment⟩)
    else
      let mark ← holdsAt (fun c => c = latin1 '/' || c = latin1 '?' || c = latin1 '!') text (lt + 1)
      let k ← skipWhile (isNameChar chars) text (if mark then lt + 2 else lt + 1)
      some (.next (setFormat lt (k - lt) .keyword) ⟨k, kXmlTag⟩)

def closesTag (i : Nat) (ch : QChar) : Option Bool :=
  if ch = latin1 '/' ∨ ch = latin1 '?' then holdsAt (· = latin1 '>') text (i + 1) else some false

/-- Inside a tag: attributes, values and the closing bracket. -/
def xmlTag (s : XmlCursor) : Option XmlStep := do
  let ch ← text[s.i]?
  let closes ← closesTag text s.i ch
  if closes then some (.next (setFormat s.i 2 .keyword) ⟨s.i + 2, kNormal⟩)
  else if ch = latin1 '>' then some (.next (setFormat s.i 1 .keyword) ⟨s.i + 1, kNormal⟩)
  else if ch = latin1 '"' ∨ ch = latin1 '\'' then
    let stop := behind text ch (s.i + 1)
    some (.next (setFormat s.i (stop - s.i) .string) { s with i := stop })
  else if chars.isLetter ch || ch = latin1 '_' then
    let j ← skipWhile (isNameChar chars) text (s.i + 1)
    some (.next (setFormat s.i (j - s.i) .variable) { s with i := j })
  else some (.next [] { s with i := s.i + 1 })

def xmlTurn (s : XmlCursor) : Option XmlStep :=
  if s.i < text.length then
    if s.state = kXmlComment then some (xmlComment text s)
    else if s.state = kNormal then xmlText chars text s
    else xmlTag chars text s
  else some (.stop [] s.state)

def highlightXml (fuel : Nat) (state : Int) : Option (Ranges × Int) := scan (xmlTurn chars text) fuel ⟨0, state⟩

/-! ## highlightBlock -/

def trimmed : QString := ((text.dropWhile chars.isSpace).reverse.dropWhile chars.isSpace).reverse

variable (found : Matches)

def highlightIni (configFor : Language → SyntaxConfig) (fuel : Nat) : Option Ranges :=
  if [latin1 '#'].isPrefixOf (trimmed chars text) || [latin1 ';'].isPrefixOf (trimmed chars text) then
    some (setFormat 0 text.length .comment)
  else
    match found.sectionRe text with
    | some length => some (setFormat 0 length .type)
    | none =>
      match found.keyRe text with
      | some (start, stop) => do
        let (ranges, _) ← scanCode chars (configFor .ini) text fuel stop kNormal
        some (setFormat start (stop - start) .variable ++ ranges)
      | none => do
        let (ranges, _) ← scanCode chars (configFor .ini) text fuel 0 kNormal
        some ranges

def highlightYaml (configFor : Language → SyntaxConfig) (fuel : Nat) (state : Int) : Option (Ranges × Int) :=
  match if state = kNormal then found.yamlKeyRe text else none with
  | some (start, stop, colon) => do
    let (ranges, next) ← scanCode chars (configFor .yaml) text fuel colon state
    some (setFormat start (stop - start) .variable ++ ranges, next)
  | none => scanCode chars (configFor .yaml) text fuel 0 state

/-- The `default` case. -/
def highlightCode (fuel : Nat) (previous : Int) : Option (Ranges × Int) :=
  if config.preprocessor ∧ previous = kNormal ∧ [latin1 '#'].isPrefixOf (trimmed chars text) then
    some (setFormat 0 text.length .control, kNormal)
  else scanCode chars config text fuel 0 previous

/-- What is marked in the block, and its state. -/
def highlightBlock (configFor : Language → SyntaxConfig) (fuel : Nat) (language : Language) (previousBlockState : Int) :
    Option (Ranges × Int) :=
  let previous := if previousBlockState < 0 then kNormal else previousBlockState
  match language with
  | .none => some ([], kNormal)
  | .xml => highlightXml chars text fuel previous
  | .ini => (highlightIni chars text found configFor fuel).map fun ranges => (ranges, kNormal)
  | .yaml => highlightYaml chars text found configFor fuel previous
  | language => highlightCode chars (configFor language) text fuel previous

end Scanner

end LvdTerm.Ui.SyntaxHighlighter
