import SensingHub.Json.State
import SensingHub.Lib.Prog
import SensingHub.Lib.Word

/-!
# The in-place parser

`parseFile` and the functions below it work in the buffer that `loadFile` has filled: they hand
pointers into it to each other and write a NUL over the closing quote of every string they have
found. Here the buffer is a list of bytes, a pointer is an index, and a `uint32_t` cursor is a
natural number whose arithmetic is reduced modulo `2 ^ 32`. A read or write outside the buffer
stops the program, as do the exceptions of `std::stoi`.

The local array `localValue` of `parseGroup` is not initialised. What it reads as when `parseItem`
has not written it is taken from `Machine.stale`, one string for each call of `parseItem`.

Loops and the recursion of `parseGroup` are bounded by fuel; running out of it is a stop of its own,
so that it can be told from every outcome of the source. The line counter, which is only logged, is
left out.
-/

namespace SensingHub.Json

open CLib (str isspace cString strchr strlcpy getlines stoi toInt32)

/-- Ways not to return. -/
inductive Stop
  | outOfBounds
  | invalidArgument
  | outOfRange
  | outOfFuel
  deriving DecidableEq, Repr

/-- The parser object, the buffer, and what the uninitialised array holds at each use. -/
structure Machine where
  parser : QshJsonParser
  json : Bytes
  stale : ℕ → Bytes
  /-- Calls of `parseItem` so far. -/
  items : ℕ
  /-- An operation on a cursor has left 32 bits; the Android build aborts there. -/
  wrapped : Bool

/-- A function of the parser. -/
abbrev ParserM := Prog Stop Machine

/-! ### Cursors -/

/-- `a + b` in `uint32_t`. -/
def add (a b : ℕ) : ParserM ℕ :=
  if a + b < 2 ^ 32 then pure (a + b)
  else do
    Prog.modify fun m ↦ { m with wrapped := true }
    pure (Word.add32 a b)

/-- `a - b` in `uint32_t`. -/
def sub (a b : ℕ) : ParserM ℕ :=
  if b ≤ a ∧ a < 2 ^ 32 then pure (a - b)
  else do
    Prog.modify fun m ↦ { m with wrapped := true }
    pure (Word.sub32 a b)

/-- `a + b` in `int32_t`. -/
def addInt (a b : ℤ) : ParserM ℤ :=
  if -2 ^ 31 ≤ a + b ∧ a + b < 2 ^ 31 then pure (a + b)
  else do
    Prog.modify fun m ↦ { m with wrapped := true }
    pure (toInt32 (a + b))

/-- An `int32_t` as a `uint32_t`. -/
def toUInt32 (a : ℤ) : ℕ :=
  (a % 2 ^ 32).toNat

/-- `&json[cidx]` for an `int32_t`. -/
def pointer (json : ℕ) (cidx : ℤ) : ParserM ℕ :=
  if json + cidx < 0 then Prog.stop .outOfBounds
  else pure (json + cidx).toNat

/-! ### Memory -/

/-- The byte at an index. -/
def byteAt (i : ℕ) : ParserM UInt8 := do
  match ← Prog.read fun m ↦ m.json[i]? with
  | some b => pure b
  | none => Prog.stop .outOfBounds

/-- Write a NUL. -/
def nulAt (i : ℕ) : ParserM Unit := do
  let size ← Prog.read fun m ↦ m.json.length
  if i < size then Prog.modify fun m ↦ { m with json := m.json.set i 0 }
  else Prog.stop .outOfBounds

/-- The C string at an index. -/
def cStringAt (i : ℕ) : ParserM Bytes := do
  match ← Prog.read fun m ↦ cString (m.json.drop i) with
  | some s => pure s
  | none => Prog.stop .outOfBounds

/-- `strchr` from an index, as an index. -/
def strchrAt (i : ℕ) (c : UInt8) : ParserM (Option ℕ) := do
  match ← Prog.read fun m ↦ strchr c (m.json.drop i) with
  | some found => pure (found.map (i + ·))
  | none => Prog.stop .outOfBounds

/-! ### `getWhitespaceLen` -/

/-- The loop of `getWhitespaceLen`; the first argument is `strLen - cidx`. -/
def whitespaceLoop (s : ℕ) : ℕ → ℕ → ParserM ℕ
  | 0, cidx => pure cidx
  | left + 1, cidx => do
    if isspace (← byteAt (s + cidx)) then whitespaceLoop s left (cidx + 1)
    else pure cidx

/-- `getWhitespaceLen` -/
def getWhitespaceLen (s strLen : ℕ) : ParserM ℕ :=
  whitespaceLoop s strLen 0

/-! ### `parsePair` -/

/-- Move the cursor past white space. -/
def skipWhitespace (json jsonlen cidx : ℕ) : ParserM ℕ := do
  add cidx (← getWhitespaceLen (json + cidx) (← sub jsonlen cidx))

/-- What `parsePair` returns and writes through its pointers. -/
structure PairResult where
  len : ℕ
  key : Option ℕ
  value : Option ℕ

/-- The value of `parsePair`, the cursor being behind the colon. -/
def parsePairValue (json jsonlen cidx key : ℕ) : ParserM PairResult := do
  let cidx ← skipWhitespace json jsonlen cidx
  if jsonlen ≤ cidx then return ⟨cidx, some key, none⟩
  let b ← byteAt (json + cidx)
  if b = 34 then
    let cidx ← add cidx 1
    let value := json + cidx
    match ← strchrAt value 34 with
    | none => return ⟨0, some key, some value⟩
    | some endString =>
      let cidx ← add cidx (endString - value)
      nulAt (json + cidx)
      let cidx ← add cidx 1
      return ⟨← skipWhitespace json jsonlen cidx, some key, some value⟩
  else if b ≠ 123 ∧ b ≠ 91 then return ⟨0, some key, none⟩
  else return ⟨cidx, some key, none⟩

/-- `parsePair` -/
def parsePair (json jsonlen : ℕ) : ParserM PairResult := do
  if jsonlen ≤ 0 then return ⟨0, none, none⟩
  if (← byteAt json) ≠ 34 then return ⟨0, none, none⟩
  let key := json + 1
  match ← strchrAt key 34 with
  | none => return ⟨0, none, none⟩
  | some endString =>
    let keyLen := endString - key
    if jsonlen ≤ 1 + keyLen then return ⟨0, some key, none⟩
    let cidx ← add 1 keyLen
    nulAt (json + cidx)
    let cidx ← add cidx 1
    let cidx ← skipWhitespace json jsonlen cidx
    if jsonlen ≤ cidx then return ⟨0, some key, none⟩
    if (← byteAt (json + cidx)) ≠ 58 then return ⟨0, some key, none⟩
    let cidx ← add cidx 1
    parsePairValue json jsonlen cidx key

/-- The first steps of every loop: past white space, and `parsePair` from there. -/
def nextPair (json jsonlen cidx : ℕ) : ParserM (ℕ × PairResult) := do
  let cidx ← skipWhitespace json jsonlen cidx
  let pair ← parsePair (json + cidx) (← sub jsonlen cidx)
  return (cidx, pair)

/-! ### `parseItem` -/

/-- `',' == json[cidx] && cidx++`, the condition that ends a round of the loops: whether there is
another round, and the cursor. -/
def commaAt (json cidx : ℕ) : ParserM (Bool × ℕ) := do
  if (← byteAt (json + cidx)) = 44 then return (decide (cidx ≠ 0), ← add cidx 1)
  else return (false, cidx)

/-- `cidx < jsonlen && ',' == json[cidx] && cidx++` -/
def commaWithin (json jsonlen cidx : ℕ) : ParserM (Bool × ℕ) :=
  if cidx < jsonlen then commaAt json cidx else pure (false, cidx)

/-- The test for the closing bracket at the end of an object: the cursor behind it. -/
def closingBracket (json jsonlen cidx : ℕ) : ParserM (Option ℕ) := do
  if jsonlen ≤ cidx then return none
  if (← byteAt (json + cidx)) ≠ 125 then return none
  return some (← add cidx 1)

/-- A member of an item: `data` is copied into `itemValue`. -/
def readData (key value : ℕ) (itemValue : Bytes) : ParserM Bytes := do
  if (← cStringAt key) = str "data" then
    return strlcpy (← cStringAt value) MAX_DATA_VALUE_LEN
  else return itemValue

/-- The loop of `parseItem` over the members of the item, then the closing bracket: the length
returned and the value the item leaves in `itemValue`. -/
def parseItemLoop : ℕ → (json jsonlen cidx : ℕ) → (itemValue : Bytes) → ParserM (ℕ × Bytes)
  | 0, _, _, _, _ => Prog.stop .outOfFuel
  | fuel + 1, json, jsonlen, cidx, itemValue => do
    let (cidx, pair) ← nextPair json jsonlen cidx
    let cidx ← add cidx pair.len
    match pair.len, pair.key, pair.value with
    | _ + 1, some key, some value =>
      let itemValue ← readData key value itemValue
      let cidx ← skipWhitespace json jsonlen cidx
      let (more, cidx) ← commaWithin json jsonlen cidx
      if more then parseItemLoop fuel json jsonlen cidx itemValue
      else
        let len ← closingBracket json jsonlen cidx
        return (len.getD 0, itemValue)
    | _, _, _ => return (cidx, itemValue)

/-- `parseItem`; `itemValue` is what the array reads as before. -/
def parseItem (fuel json jsonlen : ℕ) (itemValue : Bytes) : ParserM (ℕ × Bytes) := do
  if jsonlen ≤ 0 then return (0, itemValue)
  if (← byteAt json) ≠ 123 then return (1, itemValue)
  parseItemLoop fuel json jsonlen 1 itemValue

/-! ### `parseGroup` -/

/-- An item of a group: `parseItem` on the uninitialised array, and the call of
`updateSensingHubInfo` whatever `parseItem` returned. -/
def readItem (fuel grpName key json jsonlen : ℕ) : ParserM ℕ := do
  let localValue ← Prog.read fun m ↦ m.stale m.items
  Prog.modify fun m ↦ { m with items := m.items + 1 }
  let (len, localValue) ← parseItem fuel json jsonlen localValue
  let grpName ← cStringAt grpName
  let key ← cStringAt key
  Prog.modify fun m ↦ { m with parser := m.parser.updateSensingHubInfo grpName key localValue }
  return len

/-- `parseGroup`, given its loop; `none` is the result -1, `some` the length with the result 0. -/
def parseGroupWith (loop : (grpName json jsonlen cidx : ℕ) → ParserM (Option ℕ))
    (grpName json jsonlen : ℕ) : ParserM (Option ℕ) := do
  if jsonlen ≤ 0 then return none
  if (← byteAt json) ≠ 123 then return none
  loop grpName json jsonlen 1

/-- The value of a member of a group that is no string: a group, if the key begins with a dot, or an
item. -/
def parseNested (loop : (grpName json jsonlen cidx : ℕ) → ParserM (Option ℕ))
    (fuel grpName key json jsonlen : ℕ) : ParserM (Option ℕ) := do
  if (← byteAt key) = 46 then parseGroupWith loop key json jsonlen
  else return some (← readItem fuel grpName key json jsonlen)

/-- A round of the loop of `parseGroup`: the cursor behind the member, `none` for the result -1. -/
def parseGroupMember (loop : (grpName json jsonlen cidx : ℕ) → ParserM (Option ℕ))
    (fuel grpName json jsonlen cidx : ℕ) : ParserM (Option ℕ) := do
  let (cidx, pair) ← nextPair json jsonlen cidx
  let cidx ← add cidx pair.len
  match pair.len, pair.key, pair.value with
  | _ + 1, some _, some _ => return some cidx
  | _ + 1, some key, none =>
    match ← parseNested loop fuel grpName key (json + cidx) (← sub jsonlen cidx) with
    | some (len + 1) => return some (← add cidx (len + 1))
    | _ => return none
  | _, _, _ => return none

/-- The loop of `parseGroup` over the members of the group, then the closing bracket. The comma is
looked for without asking whether the cursor is still inside the text. -/
def parseGroupLoop : ℕ → (grpName json jsonlen cidx : ℕ) → ParserM (Option ℕ)
  | 0, _, _, _, _ => Prog.stop .outOfFuel
  | fuel + 1, grpName, json, jsonlen, cidx => do
    match ← parseGroupMember (parseGroupLoop fuel) fuel grpName json jsonlen cidx with
    | none => return none
    | some cidx =>
      let cidx ← skipWhitespace json jsonlen cidx
      let (more, cidx) ← commaAt json cidx
      if more then parseGroupLoop fuel grpName json jsonlen cidx
      else closingBracket json jsonlen cidx

/-- `parseGroup` -/
def parseGroup (fuel grpName json jsonlen : ℕ) : ParserM (Option ℕ) :=
  parseGroupWith (parseGroupLoop fuel) grpName json jsonlen

/-! ### `parseConfig` -/

/-- `mJsonSocIdList.push_back(std::stoi(token))` for each token; what `stoi` throws is not
caught. -/
def pushSocIds : List Bytes → ParserM Unit
  | [] => pure ()
  | token :: tokens =>
    match stoi token with
    | .ok socId => do
      Prog.modify fun m ↦
        { m with parser.mJsonSocIdList := m.parser.mJsonSocIdList ++ [socId] }
      pushSocIds tokens
    | .error .invalidArgument => Prog.stop .invalidArgument
    | .error .outOfRange => Prog.stop .outOfRange

/-- A member of a config section: the ids of a `soc_id` list. -/
def readSocIds (key : ℕ) : (value : Option ℕ) → ParserM Unit
  | none => pure ()
  | some value => do
    if (← cStringAt key) = str "soc_id" then pushSocIds (getlines 44 (← cStringAt value))

/-- The loop of `parseConfigItem`. -/
def parseConfigItemLoop : ℕ → (json jsonLen cidx : ℕ) → ParserM ℕ
  | 0, _, _, _ => Prog.stop .outOfFuel
  | fuel + 1, json, jsonLen, cidx => do
    if jsonLen ≤ cidx then return cidx
    let (cidx, pair) ← nextPair json jsonLen cidx
    match pair.len, pair.key with
    | _ + 1, some key =>
      let cidx ← add cidx pair.len
      readSocIds key pair.value
      let cidx ← skipWhitespace json jsonLen cidx
      if (← byteAt (json + cidx)) ≠ 44 then return cidx
      parseConfigItemLoop fuel json jsonLen (← add cidx 1)
    | _, _ => return cidx

/-- `parseConfigItem` -/
def parseConfigItem (fuel json jsonLen : ℕ) : ParserM ℕ := do
  if (← byteAt json) ≠ 123 then return 0
  parseConfigItemLoop fuel json jsonLen 1

/-- `parseConfig`; the cursor is an `int32_t`. -/
def parseConfig (fuel json jsonlen : ℕ) : ParserM ℤ := do
  let cidx ← addInt 0 (← getWhitespaceLen json jsonlen)
  if (← byteAt (← pointer json cidx)) ≠ 123 then return -1
  let cidx ← addInt cidx
    (← parseConfigItem fuel (← pointer json cidx) (← sub jsonlen (toUInt32 cidx)))
  let cidx ← addInt cidx
    (← getWhitespaceLen (← pointer json cidx) (← sub jsonlen (toUInt32 cidx)))
  if (← byteAt (← pointer json cidx)) ≠ 125 then return -1
  addInt cidx 1

/-! ### `parseFile` -/

/-- How a round of the loop of `parseFile` ends. -/
inductive Round
  | failed
  | skipped
  | read (cidx : ℕ)

/-- A top-level member, the cursor standing before its value. -/
def parseMember (fuel key json jsonlen cidx : ℕ) : ParserM Round := do
  if (← cStringAt key) = str "config" then
    let ret ← parseConfig fuel (json + cidx) (← sub jsonlen cidx)
    if ret = 0 then return .failed
    let cidx ← add cidx (toUInt32 ret)
    Prog.modify fun m ↦ { m with parser := m.parser.matchSocId }
    if ← Prog.read fun m ↦ decide m.parser.Skips then return .skipped
    return .read cidx
  else
    match ← parseGroup fuel key (json + cidx) (← sub jsonlen cidx) with
    | none => return .failed
    | some len => return .read (← add cidx len)

/-- The loop of `parseFile`: what `parseFile` returns and where its cursor stands then. There is no
white space skipped before the comma, and nothing is asked of the byte that ends the loop. -/
def parseFileLoop : ℕ → (json jsonlen cidx : ℕ) → ParserM (ℤ × ℕ)
  | 0, _, _, _ => Prog.stop .outOfFuel
  | fuel + 1, json, jsonlen, cidx => do
    let (cidx, pair) ← nextPair json jsonlen cidx
    match pair.len, pair.key, pair.value with
    | _ + 1, some key, none =>
      let cidx ← add cidx pair.len
      match ← parseMember fuel key json jsonlen cidx with
      | .failed => return (-1, cidx)
      | .skipped => return (0, cidx)
      | .read cidx =>
        let (more, cidx) ← commaWithin json jsonlen cidx
        if more then parseFileLoop fuel json jsonlen cidx
        else return (0, cidx)
    | _, _, _ => return (-1, cidx)

/-- `parseFile` with its final cursor. -/
def parseFile (fuel json jsonlen : ℕ) : ParserM (ℤ × ℕ) := do
  let cidx ← getWhitespaceLen json jsonlen
  if jsonlen ≤ cidx then return (-1, cidx)
  if (← byteAt (json + cidx)) ≠ 123 then return (-1, cidx)
  parseFileLoop fuel json jsonlen (← add cidx 1)

/-! ### `loadFile` -/

/-- What the calls of `loadFile` to the system give. -/
inductive FileOutcome
  | statFailed
  | mallocFailed
  | fopenFailed
  | freadShort
  | content (fileContent : Bytes)

/-- What is left when `loadFile` has ended. -/
structure Loaded where
  /-- The result, or what ended the call. -/
  ret : Except Stop ℤ
  parser : QshJsonParser
  /-- The buffer has been freed, or was never allocated. -/
  released : Bool
  /-- The final cursor of `parseFile`. -/
  cursor : ℕ

/-- The machine on which `parseFile` starts. -/
def Machine.start (p : QshJsonParser) (fileContent : Bytes) (stale : ℕ → Bytes) : Machine :=
  ⟨p, fileContent ++ [0], stale, 0, false⟩

/-- `loadFile` -/
def QshJsonParser.loadFile (fuel : ℕ) (stale : ℕ → Bytes) (file : FileOutcome)
    (p : QshJsonParser) : Loaded :=
  let p := p.resetParserState
  match file with
  | .statFailed | .mallocFailed | .fopenFailed | .freadShort => ⟨.ok (-1), p, true, 0⟩
  | .content fileContent =>
    match parseFile fuel 0 (fileContent.length % 2 ^ 32) (Machine.start p fileContent stale) with
    | (.error stop, m) => ⟨.error stop, m.parser, false, 0⟩
    | (.ok (ret, cursor), m) =>
      if ret = 0 then ⟨.ok 0, { m.parser with mIsFileParsed := true }, true, cursor⟩
      else ⟨.ok (-1), m.parser, true, cursor⟩

end SensingHub.Json
