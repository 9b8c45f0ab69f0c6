import SensingHub.Json.Traced

/-!
# The parser with a journal

The functions of the parser with a journal of what they do to their cursors and to the buffer: the
calls and returns of the six parsing functions, every addition to a cursor and every remaining
length, the bytes that are tested or scanned, the NULs that are written and the strings that are
used, each with the buffer as it is then.

The record of accesses says where the buffer is touched. Two questions need more: whether a cursor
moves back depends on the call it belongs to, and whether a byte is still that of the file depends
on what it is read for, since a key is meant to be read with the NUL behind it.

Without the journal each function is the one of the parser (`Journal.erases_parseFile`).
-/

namespace SensingHub.Json

open CLib (str isspace cString strlcpy getlines)

/-! ### What is written down -/

/-- What the parser does. -/
inductive Event
  /-- One of the parsing functions is called. -/
  | enter
  /-- It returns, with an error or without. -/
  | leave (failed : Bool)
  /-- `cidx += n`, or `cidx++` -/
  | advance (cidx n : ℕ)
  /-- `cidx = 0` at the end of `parseItem` -/
  | reset (cidx : ℕ)
  /-- `jsonlen - cidx` -/
  | remaining (jsonlen cidx : ℕ)
  /-- The byte at a cursor is tested. -/
  | test (i : ℕ)
  /-- The bytes from `first` to `last` are scanned for a quote. -/
  | scan (first last : ℕ)
  /-- A NUL is written. -/
  | nul (i : ℕ)
  /-- A key or value that `parsePair` has handed out is used. -/
  | use (s : ℕ)
  deriving DecidableEq, Repr

/-- Something the parser does, and the buffer before it. -/
structure Step where
  event : Event
  json : Bytes

/-- A machine with a journal. -/
abbrev Journaled := Logged Machine Step

/-- A function of the parser that keeps a journal. -/
abbrev JournalM := Prog Stop Journaled

namespace Journal

/-- Write an event into the journal. -/
def note (e : Event) : JournalM Unit :=
  Prog.modify fun t ↦ { t with log := t.log ++ [⟨e, t.state.json⟩] }

/-- Return from a function. -/
def leaving {α : Type} (failed : Bool) (a : α) : JournalM α := do
  note (.leave failed)
  return a

/-- A call, and its return. -/
def call {α : Type} (failed : α → Bool) (x : JournalM α) : JournalM α := do
  note .enter
  let a ← x
  leaving (failed a) a

/-! ### Cursors -/

/-- `cidx += n` -/
def advance (cidx n : ℕ) : JournalM ℕ := do
  note (.advance cidx n)
  Prog.quietly (add cidx n)

/-- `cidx += n` for the `int32_t` of `parseConfig`, where `n` is the `uint32_t` that the function
called returns as an `int`. -/
def advanceInt (cidx : ℤ) (n : ℕ) : JournalM ℤ := do
  note (.advance (toUInt32 cidx) n)
  Prog.quietly (addInt cidx n)

/-- `jsonlen - cidx` -/
def remaining (jsonlen cidx : ℕ) : JournalM ℕ := do
  note (.remaining jsonlen cidx)
  Prog.quietly (sub jsonlen cidx)

/-! ### Memory -/

/-- The byte at an index. -/
def byteAt (i : ℕ) : JournalM UInt8 := do
  note (.test i)
  Prog.quietly (Json.byteAt i)

/-- Write a NUL. -/
def nulAt (i : ℕ) : JournalM Unit := do
  note (.nul i)
  Prog.quietly (Json.nulAt i)

/-- A key or value. -/
def cStringAt (s : ℕ) : JournalM Bytes := do
  note (.use s)
  Prog.quietly (Json.cStringAt s)

/-- `key[0]` -/
def firstOf (key : ℕ) : JournalM UInt8 := do
  note (.use key)
  Prog.quietly (Json.byteAt key)

/-- `strchr` from an index, for a quote. -/
def strchrAt (i : ℕ) : JournalM (Option ℕ) := do
  let last ← Prog.read fun t ↦ Traced.scanEnd i 34 t.state.json
  note (.scan i last)
  Prog.quietly (Json.strchrAt i 34)

/-! ### `getWhitespaceLen` -/

/-- The loop of `getWhitespaceLen`. -/
def whitespaceLoop (s : ℕ) : ℕ → ℕ → JournalM ℕ
  | 0, cidx => pure cidx
  | left + 1, cidx => do
    if isspace (← byteAt (s + cidx)) then whitespaceLoop s left (cidx + 1)
    else pure cidx

/-- `getWhitespaceLen` -/
def getWhitespaceLen (s strLen : ℕ) : JournalM ℕ :=
  whitespaceLoop s strLen 0

/-- Move the cursor past white space. -/
def skipWhitespace (json jsonlen cidx : ℕ) : JournalM ℕ := do
  let left ← remaining jsonlen cidx
  let len ← getWhitespaceLen (json + cidx) left
  advance cidx len

/-! ### `parsePair` -/

/-- The value of `parsePair`. -/
def parsePairValue (json jsonlen cidx key : ℕ) : JournalM PairResult := do
  let cidx ← skipWhitespace json jsonlen cidx
  if jsonlen ≤ cidx then return ⟨cidx, some key, none⟩
  let b ← byteAt (json + cidx)
  if b = 34 then
    let cidx ← advance cidx 1
    let value := json + cidx
    match ← strchrAt value with
    | none => return ⟨0, some key, some value⟩
    | some endString =>
      let cidx ← advance cidx (endString - value)
      nulAt (json + cidx)
      let cidx ← advance cidx 1
      return ⟨← skipWhitespace json jsonlen cidx, some key, some value⟩
  else if b ≠ 123 ∧ b ≠ 91 then return ⟨0, some key, none⟩
  else return ⟨cidx, some key, none⟩

/-- `parsePair`, the cursor being behind the key; `json[cidx++]` is moved past whatever it finds. -/
def parsePairColon (json jsonlen cidx key : ℕ) : JournalM PairResult := do
  let cidx ← skipWhitespace json jsonlen cidx
  if jsonlen ≤ cidx then return ⟨0, some key, none⟩
  if (← byteAt (json + cidx)) ≠ 58 then
    note (.advance cidx 1)
    return ⟨0, some key, none⟩
  let cidx ← advance cidx 1
  parsePairValue json jsonlen cidx key

/-- `parsePair`; the key is logged. -/
def parsePair (json jsonlen : ℕ) : JournalM PairResult :=
  call (fun pair ↦ decide (pair.len = 0)) do
    if jsonlen ≤ 0 then return ⟨0, none, none⟩
    let b ← byteAt json
    note (.advance 0 1)
    if b ≠ 34 then return ⟨0, none, none⟩
    let key := json + 1
    match ← strchrAt key with
    | none => return ⟨0, none, none⟩
    | some endString =>
      let keyLen := endString - key
      if jsonlen ≤ 1 + keyLen then return ⟨0, some key, none⟩
      let cidx ← advance 1 keyLen
      nulAt (json + cidx)
      let cidx ← advance cidx 1
      let pair ← parsePairColon json jsonlen cidx key
      note (.use key)
      return pair

/-- Past white space, and `parsePair` from there. -/
def nextPair (json jsonlen cidx : ℕ) : JournalM (ℕ × PairResult) := do
  let cidx ← skipWhitespace json jsonlen cidx
  let left ← remaining jsonlen cidx
  let pair ← parsePair (json + cidx) left
  return (cidx, pair)

/-! ### `parseItem` -/

/-- `',' == json[cidx] && cidx++` -/
def commaAt (json cidx : ℕ) : JournalM (Bool × ℕ) := do
  if (← byteAt (json + cidx)) = 44 then
    let next ← advance cidx 1
    return (decide (cidx ≠ 0), next)
  else return (false, cidx)

/-- `cidx < jsonlen && ',' == json[cidx] && cidx++` -/
def commaWithin (json jsonlen cidx : ℕ) : JournalM (Bool × ℕ) :=
  if cidx < jsonlen then commaAt json cidx else pure (false, cidx)

/-- `cidx >= jsonlen || '}' != json[cidx++]`, the test for the closing bracket. -/
def closingBracket (json jsonlen cidx : ℕ) : JournalM (Option ℕ) := do
  if jsonlen ≤ cidx then return none
  if (← byteAt (json + cidx)) ≠ 125 then
    note (.advance cidx 1)
    return none
  let next ← advance cidx 1
  return some next

/-- A member of an item. -/
def readData (key value : ℕ) (itemValue : Bytes) : JournalM Bytes := do
  if (← cStringAt key) = str "data" then
    return strlcpy (← cStringAt value) MAX_DATA_VALUE_LEN
  else return itemValue

/-- The end of `parseItem`: without a closing bracket the cursor is set to 0, and returned. -/
def parseItemEnd (json jsonlen cidx : ℕ) (itemValue : Bytes) : JournalM (ℕ × Bytes) := do
  match ← closingBracket json jsonlen cidx with
  | some len => leaving (decide (len = 0)) (len, itemValue)
  | none =>
    note (.reset (if jsonlen ≤ cidx then cidx else cidx + 1))
    leaving true (0, itemValue)

/-- The loop of `parseItem`, up to the return. -/
def parseItemLoop : ℕ → (json jsonlen cidx : ℕ) → (itemValue : Bytes) → JournalM (ℕ × Bytes)
  | 0, _, _, _, _ => Prog.stop .outOfFuel
  | fuel + 1, json, jsonlen, cidx, itemValue => do
    let (cidx, pair) ← nextPair json jsonlen cidx
    let cidx ← advance cidx pair.len
    match pair.len, pair.key, pair.value with
    | _ + 1, some key, some value =>
      let itemValue ← readData key value itemValue
      let cidx ← skipWhitespace json jsonlen cidx
      let (more, cidx) ← commaWithin json jsonlen cidx
      if more then parseItemLoop fuel json jsonlen cidx itemValue
      else parseItemEnd json jsonlen cidx itemValue
    | _, _, _ => leaving (decide (cidx = 0)) (cidx, itemValue)

/-- `parseItem` -/
def parseItem (fuel json jsonlen : ℕ) (itemValue : Bytes) : JournalM (ℕ × Bytes) := do
  note .enter
  if jsonlen ≤ 0 then leaving true (0, itemValue)
  else
    let b ← byteAt json
    note (.advance 0 1)
    if b ≠ 123 then leaving false (1, itemValue)
    else parseItemLoop fuel json jsonlen 1 itemValue

/-! ### `parseGroup` -/

/-- An item of a group. -/
def readItem (fuel grpName key json jsonlen : ℕ) : JournalM ℕ := do
  let localValue ← Prog.quietly (Prog.read fun m ↦ m.stale m.items)
  Prog.quietly (Prog.modify fun m ↦ { m with items := m.items + 1 })
  let (len, localValue) ← parseItem fuel json jsonlen localValue
  let grpName ← cStringAt grpName
  let key ← cStringAt key
  Prog.quietly (Prog.modify fun m ↦
    { m with parser := m.parser.updateSensingHubInfo grpName key localValue })
  return len

/-- `parseGroup`, given its loop. -/
def parseGroupWith (loop : (grpName json jsonlen cidx : ℕ) → JournalM (Option ℕ))
    (grpName json jsonlen : ℕ) : JournalM (Option ℕ) :=
  call Option.isNone do
    if jsonlen ≤ 0 then return none
    let b ← byteAt json
    note (.advance 0 1)
    if b ≠ 123 then return none
    loop grpName json jsonlen 1

/-- The value of a member of a group that is no string. -/
def parseNested (loop : (grpName json jsonlen cidx : ℕ) → JournalM (Option ℕ))
    (fuel grpName key json jsonlen : ℕ) : JournalM (Option ℕ) := do
  if (← firstOf key) = 46 then parseGroupWith loop key json jsonlen
  else return some (← readItem fuel grpName key json jsonlen)

/-- The key of a string in a group is compared with "owner", and the value of an owner logged. -/
def logOwner (key value : ℕ) : JournalM Unit := do
  note (.use key)
  if ← Prog.read fun t ↦ decide (cString (t.state.json.drop key) = some (str "owner")) then
    note (.use value)

/-- A round of the loop of `parseGroup`; the key of what cannot be read is logged. -/
def parseGroupMember (loop : (grpName json jsonlen cidx : ℕ) → JournalM (Option ℕ))
    (fuel grpName json jsonlen cidx : ℕ) : JournalM (Option ℕ) := do
  let (cidx, pair) ← nextPair json jsonlen cidx
  let cidx ← advance cidx pair.len
  match pair.len, pair.key, pair.value with
  | _ + 1, some key, some value =>
    logOwner key value
    return some cidx
  | _ + 1, some key, none =>
    let left ← remaining jsonlen cidx
    match ← parseNested loop fuel grpName key (json + cidx) left with
    | some (len + 1) => return some (← advance cidx (len + 1))
    | _ =>
      note (.use key)
      return none
  | _, _, _ => return none

/-- The loop of `parseGroup`. -/
def parseGroupLoop : ℕ → (grpName json jsonlen cidx : ℕ) → JournalM (Option ℕ)
  | 0, _, _, _, _ => Prog.stop .outOfFuel
  | fuel + 1, grpName, json, jsonlen, cidx => do
    match ← parseGroupMember (parseGroupLoop fuel) fuel grpName json jsonlen cidx with
    | none => return none
    | some cidx =>
      let cidx ← skipWhitespace json jsonlen cidx
      let (more, cidx) ← commaAt json cidx
      if more then parseGroupLoop fuel grpName json jsonlen cidx
      else closingBracket json jsonlen cidx

/-- `parseGroup` -/
def parseGroup (fuel grpName json jsonlen : ℕ) : JournalM (Option ℕ) :=
  parseGroupWith (parseGroupLoop fuel) grpName json jsonlen

/-! ### `parseConfig` -/

/-- A member of a config section; its key is compared with "soc_id" whatever the value is. -/
def readSocIds (key : ℕ) : (value : Option ℕ) → JournalM Unit
  | none => note (.use key)
  | some value => do
    if (← cStringAt key) = str "soc_id" then
      Prog.quietly (pushSocIds (getlines 44 (← cStringAt value)))

/-- The loop of `parseConfigItem`. -/
def parseConfigItemLoop : ℕ → (json jsonLen cidx : ℕ) → JournalM ℕ
  | 0, _, _, _ => Prog.stop .outOfFuel
  | fuel + 1, json, jsonLen, cidx => do
    if jsonLen ≤ cidx then return cidx
    let (cidx, pair) ← nextPair json jsonLen cidx
    match pair.len, pair.key with
    | _ + 1, some key =>
      let cidx ← advance cidx pair.len
      readSocIds key pair.value
      let cidx ← skipWhitespace json jsonLen cidx
      if (← byteAt (json + cidx)) ≠ 44 then return cidx
      let cidx ← advance cidx 1
      parseConfigItemLoop fuel json jsonLen cidx
    | _, _ => return cidx

/-- `parseConfigItem` -/
def parseConfigItem (fuel json jsonLen : ℕ) : JournalM ℕ :=
  call (fun len ↦ decide (len = 0)) do
    let b ← byteAt json
    note (.advance 0 1)
    if b ≠ 123 then return 0
    parseConfigItemLoop fuel json jsonLen 1

/-- `parseConfig` -/
def parseConfig (fuel json jsonlen : ℕ) : JournalM ℤ :=
  call (fun ret ↦ decide (ret = -1)) do
    let len ← getWhitespaceLen json jsonlen
    let cidx ← advanceInt 0 len
    let bracket ← Prog.quietly (pointer json cidx)
    if (← byteAt bracket) ≠ 123 then return -1
    let start ← Prog.quietly (pointer json cidx)
    let left ← remaining jsonlen (toUInt32 cidx)
    let len ← parseConfigItem fuel start left
    let cidx ← advanceInt cidx len
    let start ← Prog.quietly (pointer json cidx)
    let left ← remaining jsonlen (toUInt32 cidx)
    let len ← getWhitespaceLen start left
    let cidx ← advanceInt cidx len
    let bracket ← Prog.quietly (pointer json cidx)
    if (← byteAt bracket) ≠ 125 then
      note (.advance (toUInt32 cidx) 1)
      return -1
    advanceInt cidx 1

/-! ### `parseFile` -/

/-- A top-level member; the key of a group that cannot be read is logged. -/
def parseMember (fuel key json jsonlen cidx : ℕ) : JournalM Round := do
  if (← cStringAt key) = str "config" then
    let left ← remaining jsonlen cidx
    let ret ← parseConfig fuel (json + cidx) left
    if ret = 0 then return .failed
    let cidx ← advance cidx (toUInt32 ret)
    Prog.quietly (Prog.modify fun m ↦ { m with parser := m.parser.matchSocId })
    if ← Prog.quietly (Prog.read fun m ↦ decide m.parser.Skips) then return .skipped
    return .read cidx
  else
    let left ← remaining jsonlen cidx
    match ← parseGroup fuel key (json + cidx) left with
    | none =>
      note (.use key)
      return .failed
    | some len => return .read (← advance cidx len)

/-- The loop of `parseFile`. -/
def parseFileLoop : ℕ → (json jsonlen cidx : ℕ) → JournalM (ℤ × ℕ)
  | 0, _, _, _ => Prog.stop .outOfFuel
  | fuel + 1, json, jsonlen, cidx => do
    let (cidx, pair) ← nextPair json jsonlen cidx
    match pair.len, pair.key, pair.value with
    | _ + 1, some key, none =>
      let cidx ← advance cidx pair.len
      match ← parseMember fuel key json jsonlen cidx with
      | .failed => return (-1, cidx)
      | .skipped => return (0, cidx)
      | .read cidx =>
        let (more, cidx) ← commaWithin json jsonlen cidx
        if more then parseFileLoop fuel json jsonlen cidx
        else return (0, cidx)
    | _, _, _ => return (-1, cidx)

/-- `parseFile`; its cursor is first set to what `getWhitespaceLen` returns. -/
def parseFile (fuel json jsonlen : ℕ) : JournalM (ℤ × ℕ) :=
  call (fun (ret, _) ↦ decide (ret = -1)) do
    let cidx ← getWhitespaceLen json jsonlen
    note (.advance 0 cidx)
    if jsonlen ≤ cidx then return (-1, cidx)
    if (← byteAt (json + cidx)) ≠ 123 then
      note (.advance cidx 1)
      return (-1, cidx)
    let cidx ← advance cidx 1
    parseFileLoop fuel json jsonlen cidx

/-! ### Without the journal -/

open Prog (Erases)

theorem erases_note (e : Event) : Erases (note e) (pure ()) :=
  fun _ ↦ rfl

theorem erases_leaving {α : Type} (failed : Bool) (a : α) : Erases (leaving failed a) (pure a) :=
  (erases_note _).before (.pure _)

theorem erases_call {α : Type} (failed : α → Bool) {x : JournalM α} {y : ParserM α}
    (h : Erases x y) : Erases (call failed x) y :=
  (erases_note _).before (h.after fun _ ↦ erases_note _)

theorem erases_advance (cidx n : ℕ) : Erases (advance cidx n) (add cidx n) :=
  (erases_note _).before (.quietly _)

theorem erases_advanceInt (cidx : ℤ) (n : ℕ) : Erases (advanceInt cidx n) (addInt cidx n) :=
  (erases_note _).before (.quietly _)

theorem erases_remaining (jsonlen cidx : ℕ) : Erases (remaining jsonlen cidx) (sub jsonlen cidx) :=
  (erases_note _).before (.quietly _)

theorem erases_byteAt (i : ℕ) : Erases (byteAt i) (Json.byteAt i) :=
  (erases_note _).before (.quietly _)

theorem erases_nulAt (i : ℕ) : Erases (nulAt i) (Json.nulAt i) :=
  (erases_note _).before (.quietly _)

theorem erases_cStringAt (s : ℕ) : Erases (cStringAt s) (Json.cStringAt s) :=
  (erases_note _).before (.quietly _)

theorem erases_firstOf (key : ℕ) : Erases (firstOf key) (Json.byteAt key) :=
  (erases_note _).before (.quietly _)

theorem erases_strchrAt (i : ℕ) : Erases (strchrAt i) (Json.strchrAt i 34) :=
  fun _ ↦ rfl

theorem erases_whitespaceLoop (s left cidx : ℕ) :
    Erases (whitespaceLoop s left cidx) (Json.whitespaceLoop s left cidx) := by
  induction left generalizing cidx with
  | zero => exact .pure _
  | succ left ih =>
    exact .bind (erases_byteAt _) fun b ↦ .ite (ih _) (.pure _)

theorem erases_getWhitespaceLen (s strLen : ℕ) :
    Erases (getWhitespaceLen s strLen) (Json.getWhitespaceLen s strLen) :=
  erases_whitespaceLoop s strLen 0

theorem erases_skipWhitespace (json jsonlen cidx : ℕ) :
    Erases (skipWhitespace json jsonlen cidx) (Json.skipWhitespace json jsonlen cidx) :=
  .bind (erases_remaining _ _) fun _ ↦ .bind (erases_getWhitespaceLen _ _) fun _ ↦
    erases_advance _ _

theorem erases_parsePairValue (json jsonlen cidx key : ℕ) :
    Erases (parsePairValue json jsonlen cidx key) (Json.parsePairValue json jsonlen cidx key) := by
  refine .bind (erases_skipWhitespace _ _ _) fun cidx ↦ .ite (.pure _) ?_
  refine .bind (erases_byteAt _) fun b ↦ .ite ?_ (.ite (.pure _) (.pure _))
  refine .bind (erases_advance _ _) fun cidx ↦ .bind (erases_strchrAt _) fun found ↦ ?_
  cases found with
  | none => exact .pure _
  | some endString =>
    exact .bind (erases_advance _ _) fun cidx ↦ .bind (erases_nulAt _) fun _ ↦
      .bind (erases_advance _ _) fun cidx ↦ .bind (erases_skipWhitespace _ _ _) fun len ↦ .pure _

theorem erases_parsePair (json jsonlen : ℕ) :
    Erases (parsePair json jsonlen) (Json.parsePair json jsonlen) := by
  refine erases_call _ (.ite (.pure _) (.bind (erases_byteAt _) fun b ↦
    (erases_note _).before (.ite (.pure _) (.bind (erases_strchrAt _) fun found ↦ ?_))))
  cases found with
  | none => exact .pure _
  | some endString =>
    refine .ite (.pure _) (.bind (erases_advance _ _) fun cidx ↦ .bind (erases_nulAt _) fun _ ↦ ?_)
    refine .bind (erases_advance _ _) fun cidx ↦ .after ?_ fun _ ↦ erases_note _
    refine .bind (erases_skipWhitespace _ _ _) fun cidx ↦ .ite (.pure _) ?_
    refine .bind (erases_byteAt _) fun b ↦ .ite ((erases_note _).before (.pure _)) ?_
    exact .bind (erases_advance _ _) fun cidx ↦ erases_parsePairValue _ _ _ _

theorem erases_nextPair (json jsonlen cidx : ℕ) :
    Erases (nextPair json jsonlen cidx) (Json.nextPair json jsonlen cidx) :=
  .bind (erases_skipWhitespace _ _ _) fun _ ↦ .bind (erases_remaining _ _) fun _ ↦
    .bind (erases_parsePair _ _) fun _ ↦ .pure _

theorem erases_commaAt (json cidx : ℕ) : Erases (commaAt json cidx) (Json.commaAt json cidx) :=
  .bind (erases_byteAt _) fun _ ↦ .ite (.bind (erases_advance _ _) fun _ ↦ .pure _) (.pure _)

theorem erases_commaWithin (json jsonlen cidx : ℕ) :
    Erases (commaWithin json jsonlen cidx) (Json.commaWithin json jsonlen cidx) :=
  .ite (erases_commaAt _ _) (.pure _)

theorem erases_closingBracket (json jsonlen cidx : ℕ) :
    Erases (closingBracket json jsonlen cidx) (Json.closingBracket json jsonlen cidx) :=
  .ite (.pure _) (.bind (erases_byteAt _) fun _ ↦
    .ite ((erases_note _).before (.pure _)) (.bind (erases_advance _ _) fun _ ↦ .pure _))

theorem erases_readData (key value : ℕ) (itemValue : Bytes) :
    Erases (readData key value itemValue) (Json.readData key value itemValue) :=
  .bind (erases_cStringAt _) fun _ ↦
    .ite (.bind (erases_cStringAt _) fun _ ↦ .pure _) (.pure _)

theorem erases_parseItemEnd (json jsonlen cidx : ℕ) (itemValue : Bytes) :
    Erases (parseItemEnd json jsonlen cidx itemValue) (do
      let len ← Json.closingBracket json jsonlen cidx
      return (len.getD 0, itemValue)) := by
  refine .bind (erases_closingBracket _ _ _) fun len ↦ ?_
  cases len with
  | none => exact (erases_note _).before (erases_leaving _ _)
  | some len => exact erases_leaving _ _

theorem erases_parseItemLoop (fuel json jsonlen cidx : ℕ) (itemValue : Bytes) :
    Erases (parseItemLoop fuel json jsonlen cidx itemValue)
      (Json.parseItemLoop fuel json jsonlen cidx itemValue) := by
  induction fuel generalizing cidx itemValue with
  | zero => exact .stop _
  | succ fuel ih =>
    refine .bind (erases_nextPair _ _ _) fun next ↦ .bind (erases_advance _ _) fun cidx ↦ ?_
    obtain ⟨_, ⟨_ | len, _ | key, _ | value⟩⟩ := next
    case succ.some.some =>
      refine .bind (erases_readData _ _ _) fun itemValue ↦ ?_
      refine .bind (erases_skipWhitespace _ _ _) fun cidx ↦ .bind (erases_commaWithin _ _ _) ?_
      rintro ⟨more, cidx⟩
      exact .ite (ih _ _) (erases_parseItemEnd _ _ _ _)
    all_goals exact erases_leaving _ _

theorem erases_parseItem (fuel json jsonlen : ℕ) (itemValue : Bytes) :
    Erases (parseItem fuel json jsonlen itemValue) (Json.parseItem fuel json jsonlen itemValue) :=
  (erases_note _).before (.ite (erases_leaving _ _) (.bind (erases_byteAt _) fun _ ↦
    (erases_note _).before (.ite (erases_leaving _ _) (erases_parseItemLoop _ _ _ _ _))))

theorem erases_readItem (fuel grpName key json jsonlen : ℕ) :
    Erases (readItem fuel grpName key json jsonlen)
      (Json.readItem fuel grpName key json jsonlen) := by
  refine .bind (.quietly _) fun localValue ↦ .bind (.quietly _) fun _ ↦ ?_
  refine .bind (erases_parseItem _ _ _ _) ?_
  rintro ⟨len, localValue⟩
  exact .bind (erases_cStringAt _) fun grpName ↦ .bind (erases_cStringAt _) fun key ↦
    .bind (.quietly _) fun _ ↦ .pure _

theorem erases_logOwner (key value : ℕ) : Erases (logOwner key value) (pure ()) := by
  refine (erases_note _).before fun t ↦ ?_
  rw [Prog.read_bind_run]
  split <;> rfl

section

variable {loop : (grpName json jsonlen cidx : ℕ) → JournalM (Option ℕ)}
  {loop' : (grpName json jsonlen cidx : ℕ) → ParserM (Option ℕ)}
  (hloop : ∀ grpName json jsonlen cidx,
    Erases (loop grpName json jsonlen cidx) (loop' grpName json jsonlen cidx))

include hloop

theorem erases_parseGroupWith (grpName json jsonlen : ℕ) :
    Erases (parseGroupWith loop grpName json jsonlen)
      (Json.parseGroupWith loop' grpName json jsonlen) :=
  erases_call _ (.ite (.pure _) (.bind (erases_byteAt _) fun _ ↦
    (erases_note _).before (.ite (.pure _) (hloop _ _ _ _))))

theorem erases_parseNested (fuel grpName key json jsonlen : ℕ) :
    Erases (parseNested loop fuel grpName key json jsonlen)
      (Json.parseNested loop' fuel grpName key json jsonlen) :=
  .bind (erases_firstOf _) fun _ ↦ .ite (erases_parseGroupWith hloop _ _ _)
    (.bind (erases_readItem _ _ _ _ _) fun _ ↦ .pure _)

theorem erases_parseGroupMember (fuel grpName json jsonlen cidx : ℕ) :
    Erases (parseGroupMember loop fuel grpName json jsonlen cidx)
      (Json.parseGroupMember loop' fuel grpName json jsonlen cidx) := by
  refine .bind (erases_nextPair _ _ _) fun next ↦ .bind (erases_advance _ _) fun cidx ↦ ?_
  obtain ⟨_, ⟨_ | len, _ | key, _ | value⟩⟩ := next
  case succ.some.none =>
    refine .bind (erases_remaining _ _) fun left ↦
      .bind (erases_parseNested hloop _ _ _ _ _) fun nested ↦ ?_
    rcases nested with _ | _ | len
    · exact (erases_note _).before (.pure _)
    · exact (erases_note _).before (.pure _)
    · exact .bind (erases_advance _ _) fun _ ↦ .pure _
  case succ.some.some => exact (erases_logOwner _ _).before (.pure _)
  all_goals exact .pure _

end

theorem erases_parseGroupLoop (fuel grpName json jsonlen cidx : ℕ) :
    Erases (parseGroupLoop fuel grpName json jsonlen cidx)
      (Json.parseGroupLoop fuel grpName json jsonlen cidx) := by
  induction fuel generalizing grpName json jsonlen cidx with
  | zero => exact .stop _
  | succ fuel ih =>
    refine .bind (erases_parseGroupMember ih _ _ _ _ _) fun next ↦ ?_
    cases next with
    | none => exact .pure _
    | some cidx =>
      refine .bind (erases_skipWhitespace _ _ _) fun cidx ↦ .bind (erases_commaAt _ _) ?_
      rintro ⟨more, cidx⟩
      exact .ite (ih _ _ _ _) (erases_closingBracket _ _ _)

theorem erases_parseGroup (fuel grpName json jsonlen : ℕ) :
    Erases (parseGroup fuel grpName json jsonlen) (Json.parseGroup fuel grpName json jsonlen) :=
  erases_parseGroupWith (erases_parseGroupLoop fuel) grpName json jsonlen

theorem erases_readSocIds (key : ℕ) (value : Option ℕ) :
    Erases (readSocIds key value) (Json.readSocIds key value) := by
  cases value with
  | none => exact erases_note _
  | some value =>
    exact .bind (erases_cStringAt _) fun _ ↦
      .ite (.bind (erases_cStringAt _) fun _ ↦ .quietly _) (.pure _)

theorem erases_parseConfigItemLoop (fuel json jsonLen cidx : ℕ) :
    Erases (parseConfigItemLoop fuel json jsonLen cidx)
      (Json.parseConfigItemLoop fuel json jsonLen cidx) := by
  induction fuel generalizing cidx with
  | zero => exact .stop _
  | succ fuel ih =>
    refine .ite (.pure _) (.bind (erases_nextPair _ _ _) fun next ↦ ?_)
    obtain ⟨_, ⟨_ | len, _ | key, value⟩⟩ := next
    case succ.some =>
      refine .bind (erases_advance _ _) fun cidx ↦ .bind (erases_readSocIds _ _) fun _ ↦ ?_
      refine .bind (erases_skipWhitespace _ _ _) fun cidx ↦ .bind (erases_byteAt _) fun b ↦ ?_
      exact .ite (.pure _) (.bind (erases_advance _ _) fun _ ↦ ih _)
    all_goals exact .pure _

theorem erases_parseConfigItem (fuel json jsonLen : ℕ) :
    Erases (parseConfigItem fuel json jsonLen) (Json.parseConfigItem fuel json jsonLen) :=
  erases_call _ (.bind (erases_byteAt _) fun _ ↦ (erases_note _).before
    (.ite (.pure _) (erases_parseConfigItemLoop _ _ _ _)))

theorem erases_parseConfig (fuel json jsonlen : ℕ) :
    Erases (parseConfig fuel json jsonlen) (Json.parseConfig fuel json jsonlen) := by
  refine erases_call _ (.bind (erases_getWhitespaceLen _ _) fun len ↦ ?_)
  refine .bind (erases_advanceInt _ _) fun cidx ↦ .bind (.quietly _) fun bracket ↦ ?_
  refine .bind (erases_byteAt _) fun b ↦ .ite (.pure _) (.bind (.quietly _) fun start ↦ ?_)
  refine .bind (erases_remaining _ _) fun left ↦ .bind (erases_parseConfigItem _ _ _) fun len ↦ ?_
  refine .bind (erases_advanceInt _ _) fun cidx ↦ .bind (.quietly _) fun start ↦ ?_
  refine .bind (erases_remaining _ _) fun left ↦ .bind (erases_getWhitespaceLen _ _) fun len ↦ ?_
  refine .bind (erases_advanceInt _ _) fun cidx ↦ .bind (.quietly _) fun bracket ↦ ?_
  refine .bind (erases_byteAt _) fun b ↦ .ite ((erases_note _).before (.pure _)) ?_
  exact erases_advanceInt _ _

theorem erases_parseMember (fuel key json jsonlen cidx : ℕ) :
    Erases (parseMember fuel key json jsonlen cidx)
      (Json.parseMember fuel key json jsonlen cidx) := by
  refine .bind (erases_cStringAt _) fun name ↦ .ite ?_ ?_
  · refine .bind (erases_remaining _ _) fun left ↦ .bind (erases_parseConfig _ _ _) fun ret ↦ ?_
    refine .ite (.pure _) (.bind (erases_advance _ _) fun cidx ↦ .bind (.quietly _) fun _ ↦ ?_)
    exact .bind (.quietly _) fun skips ↦ .ite (.pure _) (.pure _)
  · refine .bind (erases_remaining _ _) fun left ↦ .bind (erases_parseGroup _ _ _ _) fun next ↦ ?_
    cases next with
    | none => exact (erases_note _).before (.pure _)
    | some len => exact .bind (erases_advance _ _) fun _ ↦ .pure _

theorem erases_parseFileLoop (fuel json jsonlen cidx : ℕ) :
    Erases (parseFileLoop fuel json jsonlen cidx)
      (Json.parseFileLoop fuel json jsonlen cidx) := by
  induction fuel generalizing cidx with
  | zero => exact .stop _
  | succ fuel ih =>
    refine .bind (erases_nextPair _ _ _) fun next ↦ ?_
    obtain ⟨_, ⟨_ | len, _ | key, _ | value⟩⟩ := next
    case succ.some.none =>
      refine .bind (erases_advance _ _) fun cidx ↦
        .bind (erases_parseMember _ _ _ _ _) fun round ↦ ?_
      cases round with
      | failed => exact .pure _
      | skipped => exact .pure _
      | read cidx =>
        refine .bind (erases_commaWithin _ _ _) ?_
        rintro ⟨more, cidx⟩
        exact .ite (ih _) (.pure _)
    all_goals exact .pure _

/-- **Without its journal the parser is the parser.** -/
theorem erases_parseFile (fuel json jsonlen : ℕ) :
    Erases (parseFile fuel json jsonlen) (Json.parseFile fuel json jsonlen) :=
  erases_call _ (.bind (erases_getWhitespaceLen _ _) fun _ ↦ (erases_note _).before (.ite (.pure _)
    (.bind (erases_byteAt _) fun _ ↦ .ite ((erases_note _).before (.pure _))
      (.bind (erases_advance _ _) fun _ ↦ erases_parseFileLoop _ _ _ _))))

end Journal

end SensingHub.Json
