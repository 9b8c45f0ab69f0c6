import SensingHub.Json.Parser
import SensingHub.Lib.Logged

/-!
# The parser with a record of its accesses

The functions of the parser once more, each access to the buffer and each call with a remaining
length being recorded before it is made. What the record says could not be told from what the parser
does: a NUL that is written over the NUL behind the text leaves no trace, nor does a length that is
too large as long as nobody comes to rely on it.

Without the record each function is the one of the parser (`Traced.erases_parseFile`).
-/

namespace SensingHub.Json

open CLib (str isspace strlcpy getlines)

/-- What is done with the buffer. -/
inductive Access
  /-- The bytes from `first` to `last` are read. -/
  | read (first last : ℕ)
  /-- A byte is written. -/
  | write (i : ℕ)
  /-- A function is called with `&json[start]` and the remaining length `len`. -/
  | call (start len : ℕ)
  deriving DecidableEq, Repr

/-- A function of the parser that records its accesses. -/
abbrev TracedM := Prog Stop (Logged Machine Access)

namespace Traced

/-! ### Memory -/

/-- The byte at an index. -/
def byteAt (i : ℕ) : TracedM UInt8 := do
  Prog.record (.read i i)
  Prog.quietly (Json.byteAt i)

/-- Write a NUL. -/
def nulAt (i : ℕ) : TracedM Unit := do
  Prog.record (.write i)
  Prog.quietly (Json.nulAt i)

/-- Where a scan from `i` for `c` or a NUL ends. -/
def scanEnd (i : ℕ) (c : UInt8) (json : Bytes) : ℕ :=
  i + ((json.drop i).takeWhile fun b ↦ b ≠ c ∧ b ≠ 0).length

/-- The string at an index is read until `c` or its NUL. -/
def scan (i : ℕ) (c : UInt8) : TracedM Unit := do
  let last ← Prog.read fun t ↦ scanEnd i c t.state.json
  Prog.record (.read i last)

/-- The C string at an index. -/
def cStringAt (i : ℕ) : TracedM Bytes := do
  scan i 0
  Prog.quietly (Json.cStringAt i)

/-- `strchr` from an index. -/
def strchrAt (i : ℕ) (c : UInt8) : TracedM (Option ℕ) := do
  scan i c
  Prog.quietly (Json.strchrAt i c)

/-! ### `getWhitespaceLen` -/

/-- The loop of `getWhitespaceLen`. -/
def whitespaceLoop (s : ℕ) : ℕ → ℕ → TracedM ℕ
  | 0, cidx => pure cidx
  | left + 1, cidx => do
    if isspace (← byteAt (s + cidx)) then whitespaceLoop s left (cidx + 1)
    else pure cidx

/-- `getWhitespaceLen` -/
def getWhitespaceLen (s strLen : ℕ) : TracedM ℕ := do
  Prog.record (.call s strLen)
  whitespaceLoop s strLen 0

/-- Move the cursor past white space. -/
def skipWhitespace (json jsonlen cidx : ℕ) : TracedM ℕ := do
  let left ← Prog.quietly (sub jsonlen cidx)
  let len ← getWhitespaceLen (json + cidx) left
  Prog.quietly (add cidx len)

/-! ### `parsePair` -/

/-- The value of `parsePair`. -/
def parsePairValue (json jsonlen cidx key : ℕ) : TracedM PairResult := do
  let cidx ← skipWhitespace json jsonlen cidx
  if jsonlen ≤ cidx then return ⟨cidx, some key, none⟩
  let b ← byteAt (json + cidx)
  if b = 34 then
    let cidx ← Prog.quietly (add cidx 1)
    let value := json + cidx
    match ← strchrAt value 34 with
    | none => return ⟨0, some key, some value⟩
    | some endString =>
      let cidx ← Prog.quietly (add cidx (endString - value))
      nulAt (json + cidx)
      let cidx ← Prog.quietly (add cidx 1)
      return ⟨← skipWhitespace json jsonlen cidx, some key, some value⟩
  else if b ≠ 123 ∧ b ≠ 91 then return ⟨0, some key, none⟩
  else return ⟨cidx, some key, none⟩

/-- `parsePair`, the cursor being behind the key. -/
def parsePairColon (json jsonlen cidx key : ℕ) : TracedM PairResult := do
  let cidx ← skipWhitespace json jsonlen cidx
  if jsonlen ≤ cidx then return ⟨0, some key, none⟩
  if (← byteAt (json + cidx)) ≠ 58 then return ⟨0, some key, none⟩
  let cidx ← Prog.quietly (add cidx 1)
  parsePairValue json jsonlen cidx key

/-- `parsePair`; the key is logged. -/
def parsePair (json jsonlen : ℕ) : TracedM PairResult := do
  Prog.record (.call json jsonlen)
  if jsonlen ≤ 0 then return ⟨0, none, none⟩
  if (← byteAt json) ≠ 34 then return ⟨0, none, none⟩
  let key := json + 1
  match ← strchrAt key 34 with
  | none => return ⟨0, none, none⟩
  | some endString =>
    let keyLen := endString - key
    if jsonlen ≤ 1 + keyLen then return ⟨0, some key, none⟩
    let cidx ← Prog.quietly (add 1 keyLen)
    nulAt (json + cidx)
    let cidx ← Prog.quietly (add cidx 1)
    let pair ← parsePairColon json jsonlen cidx key
    scan key 0
    return pair

/-- Past white space, and `parsePair` from there. -/
def nextPair (json jsonlen cidx : ℕ) : TracedM (ℕ × PairResult) := do
  let cidx ← skipWhitespace json jsonlen cidx
  let left ← Prog.quietly (sub jsonlen cidx)
  let pair ← parsePair (json + cidx) left
  return (cidx, pair)

/-! ### `parseItem` -/

/-- `',' == json[cidx] && cidx++` -/
def commaAt (json cidx : ℕ) : TracedM (Bool × ℕ) := do
  if (← byteAt (json + cidx)) = 44 then
    let next ← Prog.quietly (add cidx 1)
    return (decide (cidx ≠ 0), next)
  else return (false, cidx)

/-- `cidx < jsonlen && ',' == json[cidx] && cidx++` -/
def commaWithin (json jsonlen cidx : ℕ) : TracedM (Bool × ℕ) :=
  if cidx < jsonlen then commaAt json cidx else pure (false, cidx)

/-- The test for the closing bracket. -/
def closingBracket (json jsonlen cidx : ℕ) : TracedM (Option ℕ) := do
  if jsonlen ≤ cidx then return none
  if (← byteAt (json + cidx)) ≠ 125 then return none
  let next ← Prog.quietly (add cidx 1)
  return some next

/-- A member of an item. -/
def readData (key value : ℕ) (itemValue : Bytes) : TracedM Bytes := do
  if (← cStringAt key) = str "data" then
    return strlcpy (← cStringAt value) MAX_DATA_VALUE_LEN
  else return itemValue

/-- The loop of `parseItem`. -/
def parseItemLoop : ℕ → (json jsonlen cidx : ℕ) → (itemValue : Bytes) → TracedM (ℕ × Bytes)
  | 0, _, _, _, _ => Prog.stop .outOfFuel
  | fuel + 1, json, jsonlen, cidx, itemValue => do
    let (cidx, pair) ← nextPair json jsonlen cidx
    let cidx ← Prog.quietly (add cidx pair.len)
    match pair.len, pair.key, pair.value with
    | _ + 1, some key, some value =>
      let itemValue ← readData key value itemValue
      let cidx ← skipWhitespace json jsonlen cidx
      let (more, cidx) ← commaWithin json jsonlen cidx
      if more then parseItemLoop fuel json jsonlen cidx itemValue
      else
        let len ← closingBracket json jsonlen cidx
        return (len.getD 0, itemValue)
    | _, _, _ => return (cidx, itemValue)

/-- `parseItem` -/
def parseItem (fuel json jsonlen : ℕ) (itemValue : Bytes) : TracedM (ℕ × Bytes) := do
  Prog.record (.call json jsonlen)
  if jsonlen ≤ 0 then return (0, itemValue)
  if (← byteAt json) ≠ 123 then return (1, itemValue)
  parseItemLoop fuel json jsonlen 1 itemValue

/-! ### `parseGroup` -/

/-- An item of a group. -/
def readItem (fuel grpName key json jsonlen : ℕ) : TracedM ℕ := do
  let localValue ← Prog.quietly (Prog.read fun m ↦ m.stale m.items)
  Prog.quietly (Prog.modify fun m ↦ { m with items := m.items + 1 })
  let (len, localValue) ← parseItem fuel json jsonlen localValue
  let grpName ← cStringAt grpName
  let key ← cStringAt key
  Prog.quietly (Prog.modify fun m ↦
    { m with parser := m.parser.updateSensingHubInfo grpName key localValue })
  return len

/-- `parseGroup`, given its loop. -/
def parseGroupWith (loop : (grpName json jsonlen cidx : ℕ) → TracedM (Option ℕ))
    (grpName json jsonlen : ℕ) : TracedM (Option ℕ) := do
  Prog.record (.call json jsonlen)
  if jsonlen ≤ 0 then return none
  if (← byteAt json) ≠ 123 then return none
  loop grpName json jsonlen 1

/-- The value of a member of a group that is no string. -/
def parseNested (loop : (grpName json jsonlen cidx : ℕ) → TracedM (Option ℕ))
    (fuel grpName key json jsonlen : ℕ) : TracedM (Option ℕ) := do
  if (← byteAt key) = 46 then parseGroupWith loop key json jsonlen
  else return some (← readItem fuel grpName key json jsonlen)

/-- A round of the loop of `parseGroup`; the key of a string is compared with "owner", and its value
logged, as is the key of what cannot be read. -/
def parseGroupMember (loop : (grpName json jsonlen cidx : ℕ) → TracedM (Option ℕ))
    (fuel grpName json jsonlen cidx : ℕ) : TracedM (Option ℕ) := do
  let (cidx, pair) ← nextPair json jsonlen cidx
  let cidx ← Prog.quietly (add cidx pair.len)
  match pair.len, pair.key, pair.value with
  | _ + 1, some key, some value =>
    scan key 0
    scan value 0
    return some cidx
  | _ + 1, some key, none =>
    let left ← Prog.quietly (sub jsonlen cidx)
    match ← parseNested loop fuel grpName key (json + cidx) left with
    | some (len + 1) => return some (← Prog.quietly (add cidx (len + 1)))
    | _ =>
      scan key 0
      return none
  | _, _, _ => return none

/-- The loop of `parseGroup`. -/
def parseGroupLoop : ℕ → (grpName json jsonlen cidx : ℕ) → TracedM (Option ℕ)
  | 0, _, _, _, _ => Prog.stop .outOfFuel
  | fuel + 1, grpName, json, jsonlen, cidx => do
    match ← parseGroupMember (parseGroupLoop fuel) fuel grpName json jsonlen cidx with
    | none => return none
    | some cidx =>
      let cidx ← skipWhitespace json jsonlen cidx
      let (more, cidx) ← commaAt json cidx
      if more then parseGroupLoop fuel grpName json jsonlen cidx
      else closingBracket json jsonlen cidx

/-- `parseGroup` -/
def parseGroup (fuel grpName json jsonlen : ℕ) : TracedM (Option ℕ) :=
  parseGroupWith (parseGroupLoop fuel) grpName json jsonlen

/-! ### `parseConfig` -/

/-- A member of a config section. -/
def readSocIds (key : ℕ) : (value : Option ℕ) → TracedM Unit
  | none => pure ()
  | some value => do
    if (← cStringAt key) = str "soc_id" then
      Prog.quietly (pushSocIds (getlines 44 (← cStringAt value)))

/-- The loop of `parseConfigItem`. -/
def parseConfigItemLoop : ℕ → (json jsonLen cidx : ℕ) → TracedM ℕ
  | 0, _, _, _ => Prog.stop .outOfFuel
  | fuel + 1, json, jsonLen, cidx => do
    if jsonLen ≤ cidx then return cidx
    let (cidx, pair) ← nextPair json jsonLen cidx
    match pair.len, pair.key with
    | _ + 1, some key =>
      let cidx ← Prog.quietly (add cidx pair.len)
      readSocIds key pair.value
      let cidx ← skipWhitespace json jsonLen cidx
      if (← byteAt (json + cidx)) ≠ 44 then return cidx
      let cidx ← Prog.quietly (add cidx 1)
      parseConfigItemLoop fuel json jsonLen cidx
    | _, _ => return cidx

/-- `parseConfigItem` -/
def parseConfigItem (fuel json jsonLen : ℕ) : TracedM ℕ := do
  Prog.record (.call json jsonLen)
  if (← byteAt json) ≠ 123 then return 0
  parseConfigItemLoop fuel json jsonLen 1

/-- `parseConfig` -/
def parseConfig (fuel json jsonlen : ℕ) : TracedM ℤ := do
  Prog.record (.call json jsonlen)
  let len ← getWhitespaceLen json jsonlen
  let cidx ← Prog.quietly (addInt 0 len)
  let bracket ← Prog.quietly (pointer json cidx)
  if (← byteAt bracket) ≠ 123 then return -1
  let start ← Prog.quietly (pointer json cidx)
  let left ← Prog.quietly (sub jsonlen (toUInt32 cidx))
  let len ← parseConfigItem fuel start left
  let cidx ← Prog.quietly (addInt cidx len)
  let start ← Prog.quietly (pointer json cidx)
  let left ← Prog.quietly (sub jsonlen (toUInt32 cidx))
  let len ← getWhitespaceLen start left
  let cidx ← Prog.quietly (addInt cidx len)
  let bracket ← Prog.quietly (pointer json cidx)
  if (← byteAt bracket) ≠ 125 then return -1
  Prog.quietly (addInt cidx 1)

/-! ### `parseFile` -/

/-- A top-level member. -/
def parseMember (fuel key json jsonlen cidx : ℕ) : TracedM Round := do
  if (← cStringAt key) = str "config" then
    let left ← Prog.quietly (sub jsonlen cidx)
    let ret ← parseConfig fuel (json + cidx) left
    if ret = 0 then return .failed
    let cidx ← Prog.quietly (add cidx (toUInt32 ret))
    Prog.quietly (Prog.modify fun m ↦ { m with parser := m.parser.matchSocId })
    if ← Prog.quietly (Prog.read fun m ↦ decide m.parser.Skips) then return .skipped
    return .read cidx
  else
    let left ← Prog.quietly (sub jsonlen cidx)
    match ← parseGroup fuel key (json + cidx) left with
    | none => return .failed
    | some len => return .read (← Prog.quietly (add cidx len))

/-- The loop of `parseFile`. -/
def parseFileLoop : ℕ → (json jsonlen cidx : ℕ) → TracedM (ℤ × ℕ)
  | 0, _, _, _ => Prog.stop .outOfFuel
  | fuel + 1, json, jsonlen, cidx => do
    let (cidx, pair) ← nextPair json jsonlen cidx
    match pair.len, pair.key, pair.value with
    | _ + 1, some key, none =>
      let cidx ← Prog.quietly (add cidx pair.len)
      match ← parseMember fuel key json jsonlen cidx with
      | .failed => return (-1, cidx)
      | .skipped => return (0, cidx)
      | .read cidx =>
        let (more, cidx) ← commaWithin json jsonlen cidx
        if more then parseFileLoop fuel json jsonlen cidx
        else return (0, cidx)
    | _, _, _ => return (-1, cidx)

/-- `parseFile` -/
def parseFile (fuel json jsonlen : ℕ) : TracedM (ℤ × ℕ) := do
  Prog.record (.call json jsonlen)
  let cidx ← getWhitespaceLen json jsonlen
  if jsonlen ≤ cidx then return (-1, cidx)
  if (← byteAt (json + cidx)) ≠ 123 then return (-1, cidx)
  let cidx ← Prog.quietly (add cidx 1)
  parseFileLoop fuel json jsonlen cidx

/-! ### Without the record -/

open Prog (Erases)

theorem erases_byteAt (i : ℕ) : Erases (byteAt i) (Json.byteAt i) :=
  (Erases.record _).before (.quietly _)

theorem erases_nulAt (i : ℕ) : Erases (nulAt i) (Json.nulAt i) :=
  (Erases.record _).before (.quietly _)

theorem erases_scan (i : ℕ) (c : UInt8) : Erases (scan i c) (pure ()) :=
  fun _ ↦ rfl

theorem erases_cStringAt (i : ℕ) : Erases (cStringAt i) (Json.cStringAt i) :=
  (erases_scan _ _).before (.quietly _)

theorem erases_strchrAt (i : ℕ) (c : UInt8) : Erases (strchrAt i c) (Json.strchrAt i c) :=
  (erases_scan _ _).before (.quietly _)

theorem erases_whitespaceLoop (s left cidx : ℕ) :
    Erases (whitespaceLoop s left cidx) (Json.whitespaceLoop s left cidx) := by
  induction left generalizing cidx with
  | zero => exact .pure _
  | succ left ih =>
    exact .bind (erases_byteAt _) fun b ↦ .ite (ih _) (.pure _)

theorem erases_getWhitespaceLen (s strLen : ℕ) :
    Erases (getWhitespaceLen s strLen) (Json.getWhitespaceLen s strLen) :=
  (Erases.record _).before (erases_whitespaceLoop s strLen 0)

theorem erases_skipWhitespace (json jsonlen cidx : ℕ) :
    Erases (skipWhitespace json jsonlen cidx) (Json.skipWhitespace json jsonlen cidx) :=
  .bind (.quietly _) fun _ ↦ .bind (erases_getWhitespaceLen _ _) fun _ ↦ .quietly _

theorem erases_parsePairValue (json jsonlen cidx key : ℕ) :
    Erases (parsePairValue json jsonlen cidx key) (Json.parsePairValue json jsonlen cidx key) := by
  refine .bind (erases_skipWhitespace _ _ _) fun cidx ↦ .ite (.pure _) ?_
  refine .bind (erases_byteAt _) fun b ↦ .ite ?_ (.ite (.pure _) (.pure _))
  refine .bind (.quietly _) fun cidx ↦ .bind (erases_strchrAt _ _) fun found ↦ ?_
  cases found with
  | none => exact .pure _
  | some endString =>
    exact .bind (.quietly _) fun cidx ↦ .bind (erases_nulAt _) fun _ ↦ .bind (.quietly _)
      fun cidx ↦ .bind (erases_skipWhitespace _ _ _) fun len ↦ .pure _

theorem erases_parsePair (json jsonlen : ℕ) :
    Erases (parsePair json jsonlen) (Json.parsePair json jsonlen) := by
  refine (Erases.record _).before (.ite (.pure _) (.bind (erases_byteAt _) fun b ↦ ?_))
  refine .ite (.pure _) (.bind (erases_strchrAt _ _) fun found ↦ ?_)
  cases found with
  | none => exact .pure _
  | some endString =>
    refine .ite (.pure _) (.bind (.quietly _) fun cidx ↦ .bind (erases_nulAt _) fun _ ↦ ?_)
    refine .bind (.quietly _) fun cidx ↦ .after ?_ fun _ ↦ erases_scan _ _
    refine .bind (erases_skipWhitespace _ _ _) fun cidx ↦ .ite (.pure _) ?_
    refine .bind (erases_byteAt _) fun b ↦ .ite (.pure _) ?_
    exact .bind (.quietly _) fun cidx ↦ erases_parsePairValue _ _ _ _

theorem erases_nextPair (json jsonlen cidx : ℕ) :
    Erases (nextPair json jsonlen cidx) (Json.nextPair json jsonlen cidx) :=
  .bind (erases_skipWhitespace _ _ _) fun _ ↦ .bind (.quietly _) fun _ ↦
    .bind (erases_parsePair _ _) fun _ ↦ .pure _

theorem erases_commaAt (json cidx : ℕ) : Erases (commaAt json cidx) (Json.commaAt json cidx) :=
  .bind (erases_byteAt _) fun _ ↦ .ite (.bind (.quietly _) fun _ ↦ .pure _) (.pure _)

theorem erases_commaWithin (json jsonlen cidx : ℕ) :
    Erases (commaWithin json jsonlen cidx) (Json.commaWithin json jsonlen cidx) :=
  .ite (erases_commaAt _ _) (.pure _)

theorem erases_closingBracket (json jsonlen cidx : ℕ) :
    Erases (closingBracket json jsonlen cidx) (Json.closingBracket json jsonlen cidx) :=
  .ite (.pure _) (.bind (erases_byteAt _) fun _ ↦
    .ite (.pure _) (.bind (.quietly _) fun _ ↦ .pure _))

theorem erases_readData (key value : ℕ) (itemValue : Bytes) :
    Erases (readData key value itemValue) (Json.readData key value itemValue) :=
  .bind (erases_cStringAt _) fun _ ↦
    .ite (.bind (erases_cStringAt _) fun _ ↦ .pure _) (.pure _)

theorem erases_parseItemLoop (fuel json jsonlen cidx : ℕ) (itemValue : Bytes) :
    Erases (parseItemLoop fuel json jsonlen cidx itemValue)
      (Json.parseItemLoop fuel json jsonlen cidx itemValue) := by
  induction fuel generalizing cidx itemValue with
  | zero => exact .stop _
  | succ fuel ih =>
    refine .bind (erases_nextPair _ _ _) fun next ↦ .bind (.quietly _) fun cidx ↦ ?_
    obtain ⟨_, ⟨_ | len, _ | key, _ | value⟩⟩ := next
    case succ.some.some =>
      refine .bind (erases_readData _ _ _) fun itemValue ↦ ?_
      refine .bind (erases_skipWhitespace _ _ _) fun cidx ↦ .bind (erases_commaWithin _ _ _) ?_
      rintro ⟨more, cidx⟩
      exact .ite (ih _ _) (.bind (erases_closingBracket _ _ _) fun _ ↦ .pure _)
    all_goals exact .pure _

theorem erases_parseItem (fuel json jsonlen : ℕ) (itemValue : Bytes) :
    Erases (parseItem fuel json jsonlen itemValue) (Json.parseItem fuel json jsonlen itemValue) :=
  (Erases.record _).before (.ite (.pure _) (.bind (erases_byteAt _) fun _ ↦
    .ite (.pure _) (erases_parseItemLoop _ _ _ _ _)))

theorem erases_readItem (fuel grpName key json jsonlen : ℕ) :
    Erases (readItem fuel grpName key json jsonlen)
      (Json.readItem fuel grpName key json jsonlen) := by
  refine .bind (.quietly _) fun localValue ↦ .bind (.quietly _) fun _ ↦ ?_
  refine .bind (erases_parseItem _ _ _ _) ?_
  rintro ⟨len, localValue⟩
  exact .bind (erases_cStringAt _) fun grpName ↦ .bind (erases_cStringAt _) fun key ↦
    .bind (.quietly _) fun _ ↦ .pure _

section

variable {loop : (grpName json jsonlen cidx : ℕ) → TracedM (Option ℕ)}
  {loop' : (grpName json jsonlen cidx : ℕ) → ParserM (Option ℕ)}
  (hloop : ∀ grpName json jsonlen cidx,
    Erases (loop grpName json jsonlen cidx) (loop' grpName json jsonlen cidx))

include hloop

theorem erases_parseGroupWith (grpName json jsonlen : ℕ) :
    Erases (parseGroupWith loop grpName json jsonlen)
      (Json.parseGroupWith loop' grpName json jsonlen) :=
  (Erases.record _).before (.ite (.pure _) (.bind (erases_byteAt _) fun _ ↦
    .ite (.pure _) (hloop _ _ _ _)))

theorem erases_parseNested (fuel grpName key json jsonlen : ℕ) :
    Erases (parseNested loop fuel grpName key json jsonlen)
      (Json.parseNested loop' fuel grpName key json jsonlen) :=
  .bind (erases_byteAt _) fun _ ↦ .ite (erases_parseGroupWith hloop _ _ _)
    (.bind (erases_readItem _ _ _ _ _) fun _ ↦ .pure _)

theorem erases_parseGroupMember (fuel grpName json jsonlen cidx : ℕ) :
    Erases (parseGroupMember loop fuel grpName json jsonlen cidx)
      (Json.parseGroupMember loop' fuel grpName json jsonlen cidx) := by
  refine .bind (erases_nextPair _ _ _) fun next ↦ .bind (.quietly _) fun cidx ↦ ?_
  obtain ⟨_, ⟨_ | len, _ | key, _ | value⟩⟩ := next
  case succ.some.none =>
    refine .bind (.quietly _) fun left ↦ .bind (erases_parseNested hloop _ _ _ _ _) fun nested ↦ ?_
    rcases nested with _ | _ | len
    · exact (erases_scan _ _).before (.pure _)
    · exact (erases_scan _ _).before (.pure _)
    · exact .bind (.quietly _) fun _ ↦ .pure _
  case succ.some.some => exact (erases_scan _ _).before ((erases_scan _ _).before (.pure _))
  all_goals exact .pure _

end

theorem erases_parseGroupLoop (fuel grpName json jsonlen cidx : ℕ) :
    Erases (parseGroupLoop fuel grpName json jsonlen cidx)
      (Json.parseGroupLoop fuel grpName json jsonlen cidx) := by
  induction fuel generalizing grpName json jsonlen cidx with
  | zero => exact .stop _
  | succ fuel ih =>
    refine .bind (erases_parseGroupMember ih _ _ _ _ _) fun next ↦ ?_
    cases next with
    | none => exact .pure _
    | some cidx =>
      refine .bind (erases_skipWhitespace _ _ _) fun cidx ↦ .bind (erases_commaAt _ _) ?_
      rintro ⟨more, cidx⟩
      exact .ite (ih _ _ _ _) (erases_closingBracket _ _ _)

theorem erases_parseGroup (fuel grpName json jsonlen : ℕ) :
    Erases (parseGroup fuel grpName json jsonlen) (Json.parseGroup fuel grpName json jsonlen) :=
  erases_parseGroupWith (erases_parseGroupLoop fuel) grpName json jsonlen

theorem erases_readSocIds (key : ℕ) (value : Option ℕ) :
    Erases (readSocIds key value) (Json.readSocIds key value) := by
  cases value with
  | none => exact .pure _
  | some value =>
    exact .bind (erases_cStringAt _) fun _ ↦
      .ite (.bind (erases_cStringAt _) fun _ ↦ .quietly _) (.pure _)

theorem erases_parseConfigItemLoop (fuel json jsonLen cidx : ℕ) :
    Erases (parseConfigItemLoop fuel json jsonLen cidx)
      (Json.parseConfigItemLoop fuel json jsonLen cidx) := by
  induction fuel generalizing cidx with
  | zero => exact .stop _
  | succ fuel ih =>
    refine .ite (.pure _) (.bind (erases_nextPair _ _ _) fun next ↦ ?_)
    obtain ⟨_, ⟨_ | len, _ | key, value⟩⟩ := next
    case succ.some =>
      refine .bind (.quietly _) fun cidx ↦ .bind (erases_readSocIds _ _) fun _ ↦ ?_
      refine .bind (erases_skipWhitespace _ _ _) fun cidx ↦ .bind (erases_byteAt _) fun b ↦ ?_
      exact .ite (.pure _) (.bind (.quietly _) fun _ ↦ ih _)
    all_goals exact .pure _

theorem erases_parseConfigItem (fuel json jsonLen : ℕ) :
    Erases (parseConfigItem fuel json jsonLen) (Json.parseConfigItem fuel json jsonLen) :=
  (Erases.record _).before (.bind (erases_byteAt _) fun _ ↦
    .ite (.pure _) (erases_parseConfigItemLoop _ _ _ _))

theorem erases_parseConfig (fuel json jsonlen : ℕ) :
    Erases (parseConfig fuel json jsonlen) (Json.parseConfig fuel json jsonlen) := by
  refine (Erases.record _).before (.bind (erases_getWhitespaceLen _ _) fun len ↦ ?_)
  refine .bind (.quietly _) fun cidx ↦ ?_
  refine .bind (.quietly _) fun bracket ↦ .bind (erases_byteAt _) fun b ↦ .ite (.pure _) ?_
  refine .bind (.quietly _) fun start ↦ .bind (.quietly _) fun left ↦ ?_
  refine .bind (erases_parseConfigItem _ _ _) fun len ↦ .bind (.quietly _) fun cidx ↦ ?_
  refine .bind (.quietly _) fun start ↦ .bind (.quietly _) fun left ↦ ?_
  refine .bind (erases_getWhitespaceLen _ _) fun len ↦ .bind (.quietly _) fun cidx ↦ ?_
  refine .bind (.quietly _) fun bracket ↦ .bind (erases_byteAt _) fun b ↦ .ite (.pure _) ?_
  exact .quietly _

theorem erases_parseMember (fuel key json jsonlen cidx : ℕ) :
    Erases (parseMember fuel key json jsonlen cidx)
      (Json.parseMember fuel key json jsonlen cidx) := by
  refine .bind (erases_cStringAt _) fun name ↦ .ite ?_ ?_
  · refine .bind (.quietly _) fun left ↦ .bind (erases_parseConfig _ _ _) fun ret ↦ ?_
    refine .ite (.pure _) (.bind (.quietly _) fun cidx ↦ .bind (.quietly _) fun _ ↦ ?_)
    exact .bind (.quietly _) fun skips ↦ .ite (.pure _) (.pure _)
  · refine .bind (.quietly _) fun left ↦ .bind (erases_parseGroup _ _ _ _) fun next ↦ ?_
    cases next with
    | none => exact .pure _
    | some len => exact .bind (.quietly _) fun _ ↦ .pure _

theorem erases_parseFileLoop (fuel json jsonlen cidx : ℕ) :
    Erases (parseFileLoop fuel json jsonlen cidx)
      (Json.parseFileLoop fuel json jsonlen cidx) := by
  induction fuel generalizing cidx with
  | zero => exact .stop _
  | succ fuel ih =>
    refine .bind (erases_nextPair _ _ _) fun next ↦ ?_
    obtain ⟨_, ⟨_ | len, _ | key, _ | value⟩⟩ := next
    case succ.some.none =>
      refine .bind (.quietly _) fun cidx ↦ .bind (erases_parseMember _ _ _ _ _) fun round ↦ ?_
      cases round with
      | failed => exact .pure _
      | skipped => exact .pure _
      | read cidx =>
        refine .bind (erases_commaWithin _ _ _) ?_
        rintro ⟨more, cidx⟩
        exact .ite (ih _) (.pure _)
    all_goals exact .pure _

/-- **Without its record the traced parser is the parser.** -/
theorem erases_parseFile (fuel json jsonlen : ℕ) :
    Erases (parseFile fuel json jsonlen) (Json.parseFile fuel json jsonlen) :=
  (Erases.record _).before (.bind (erases_getWhitespaceLen _ _) fun _ ↦ .ite (.pure _)
    (.bind (erases_byteAt _) fun _ ↦ .ite (.pure _)
      (.bind (.quietly _) fun _ ↦ erases_parseFileLoop _ _ _ _)))

end Traced

end SensingHub.Json
