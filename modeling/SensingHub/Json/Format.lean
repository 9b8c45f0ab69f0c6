import SensingHub.Json.State
import SensingHub.Json.Token

/-!
# The parser over tokens

The same parser over a list of tokens that never changes, without cursors, lengths or memory. A
function that reads a part of the text gives back the tokens behind it. What a group does to the
parser object is recorded as the calls of `updateSensingHubInfo` it makes, in order, so that
the text of a group can be talked about apart from the state it is read in.

The rounds of the loops are counted by fuel as in the in-place parser, `none` being a run that is
out of it. As every round passes at least one token, fuel beyond the number of tokens is enough
(`group_isSome`, `file_isSome`).
-/

namespace SensingHub.Json

open CLib (str strlcpy getlines stoi StoiError)

/-- A call of `updateSensingHubInfo`; `data` is `none` when its value is the uninitialised array. -/
structure Call where
  grpName : Bytes
  key : Bytes
  data : Option Bytes
  deriving DecidableEq, Repr

namespace Format

/-! ### Pairs -/

/-- A key with its value, if that is a string, and the tokens behind. -/
structure Pair where
  key : Bytes
  value : Option Bytes
  rest : List Token

/-- The part of `parsePair` behind the colon. -/
def pairValue (key : Bytes) : List Token → Option Pair
  | [] => some ⟨key, none, []⟩
  | .quoted value :: ts => some ⟨key, some value, ts⟩
  | .byte b :: ts => if b = 123 ∨ b = 91 then some ⟨key, none, .byte b :: ts⟩ else none
  | .unclosed :: _ => none

/-- `parsePair` -/
def pair : List Token → Option Pair
  | .quoted key :: .byte b :: ts => if b = 58 then pairValue key ts else none
  | _ => none

/-! ### Items -/

/-- What an item has written into `itemValue`, if anything, and the tokens at which it ends; `none`
for the length 0. -/
structure ItemRead where
  data : Option Bytes
  rest : Option (List Token)

/-- What `itemValue` holds behind a member of an item. -/
def itemData (key value : Bytes) (data : Option Bytes) : Option Bytes :=
  if key = str "data" then some (strlcpy value MAX_DATA_VALUE_LEN) else data

/-- The loop of `parseItem`. Where no pair with a string can be read the item ends without an
error. -/
def itemLoop : ℕ → List Token → Option Bytes → Option ItemRead
  | 0, _, _ => none
  | fuel + 1, ts, data =>
    match pair ts with
    | none => some ⟨data, some ts⟩
    | some ⟨_, none, rest⟩ => some ⟨data, some rest⟩
    | some ⟨key, some value, rest⟩ =>
      match rest with
      | .byte 44 :: rest => itemLoop fuel rest (itemData key value data)
      | .byte 125 :: rest => some ⟨itemData key value data, some rest⟩
      | _ => some ⟨itemData key value data, none⟩

/-- `parseItem` -/
def item (fuel : ℕ) : List Token → Option ItemRead
  | [] => some ⟨none, none⟩
  | .byte 123 :: ts => itemLoop fuel ts none
  | _ :: ts => some ⟨none, some ts⟩

/-! ### Groups -/

/-- The calls a group makes and the tokens behind it; `none` for the result -1. -/
structure GroupRead where
  calls : List Call
  rest : Option (List Token)
  deriving DecidableEq, Repr

/-- Go on with `next` behind what has been read. -/
def GroupRead.andThen (r : GroupRead) (next : List Token → Option GroupRead) : Option GroupRead :=
  match r.rest with
  | none => some r
  | some rest => (next rest).map fun r' ↦ ⟨r.calls ++ r'.calls, r'.rest⟩

/-- `parseGroup`, given its loop. -/
def groupWith (loop : Bytes → List Token → Option GroupRead) (grpName : Bytes) :
    List Token → Option GroupRead
  | .byte 123 :: ts => loop grpName ts
  | _ => some ⟨[], none⟩

/-- A member of a group. -/
def member (loop : Bytes → List Token → Option GroupRead) (fuel : ℕ) (grpName : Bytes)
    (ts : List Token) : Option GroupRead :=
  match pair ts with
  | none => some ⟨[], none⟩
  | some ⟨_, some _, rest⟩ => some ⟨[], some rest⟩
  | some ⟨key, none, rest⟩ =>
    if key.head? = some 46 then groupWith loop key rest
    else (item fuel rest).map fun i ↦ ⟨[⟨grpName, key, i.data⟩], i.rest⟩

/-- What follows a member: another round, or the end of the group. -/
def separator (loop : List Token → Option GroupRead) : List Token → Option GroupRead
  | .byte 44 :: ts => loop ts
  | .byte 125 :: ts => some ⟨[], some ts⟩
  | _ => some ⟨[], none⟩

/-- The loop of `parseGroup`. -/
def groupLoop : ℕ → Bytes → List Token → Option GroupRead
  | 0, _, _ => none
  | fuel + 1, grpName, ts =>
    (member (groupLoop fuel) fuel grpName ts).bind
      fun r ↦ r.andThen (separator (groupLoop fuel grpName))

/-- `parseGroup` -/
def group (fuel : ℕ) (grpName : Bytes) (ts : List Token) : Option GroupRead :=
  groupWith (groupLoop fuel) grpName ts

/-! ### Config sections -/

/-- The ids of a `soc_id` list, up to the first token that is none. -/
def socIds : List Bytes → List ℤ × Option StoiError
  | [] => ([], none)
  | token :: tokens =>
    match stoi token with
    | .ok socId => (socId :: (socIds tokens).1, (socIds tokens).2)
    | .error e => ([], some e)

/-- The ids in a member of a config section. -/
def memberIds (key : Bytes) : (value : Option Bytes) → List ℤ × Option StoiError
  | none => ([], none)
  | some value => if key = str "soc_id" then socIds (getlines 44 value) else ([], none)

/-- The ids that have been read, and the tokens at which reading has ended unless `stoi` has
thrown. -/
structure ConfigItemRead where
  ids : List ℤ
  rest : Except StoiError (List Token)

/-- The loop of `parseConfigItem`. -/
def configLoop : ℕ → List Token → Option ConfigItemRead
  | 0, _ => none
  | fuel + 1, ts =>
    match pair ts with
    | none => some ⟨[], .ok ts⟩
    | some ⟨key, value, rest⟩ =>
      match memberIds key value with
      | (ids, some e) => some ⟨ids, .error e⟩
      | (ids, none) =>
        match rest with
        | .byte 44 :: rest => (configLoop fuel rest).map fun r ↦ ⟨ids ++ r.ids, r.rest⟩
        | rest => some ⟨ids, .ok rest⟩

/-- How a config section ends: read, with the result -1, or by what `stoi` throws. -/
inductive ConfigEnd
  | read (rest : List Token)
  | failed
  | threw (e : StoiError)

/-- The ids a config section lists and how it ends. -/
structure ConfigRead where
  ids : List ℤ
  ending : ConfigEnd

/-- The test for the closing bracket of a config section. -/
def configEnd : Except StoiError (List Token) → ConfigEnd
  | .error e => .threw e
  | .ok (.byte 125 :: ts) => .read ts
  | .ok _ => .failed

/-- `parseConfig` -/
def config (fuel : ℕ) : List Token → Option ConfigRead
  | .byte 123 :: ts => (configLoop fuel ts).map fun r ↦ ⟨r.ids, configEnd r.rest⟩
  | _ => some ⟨[], .failed⟩

end Format

/-! ### Files -/

/-- The parser object and the number of items read so far. -/
structure Progress where
  parser : QshJsonParser
  items : ℕ

namespace Progress

/-- A call of `updateSensingHubInfo`. -/
def call (stale : ℕ → Bytes) (s : Progress) (c : Call) : Progress :=
  ⟨s.parser.updateSensingHubInfo c.grpName c.key (c.data.getD (stale s.items)), s.items + 1⟩

/-- Calls in order. -/
def calls (stale : ℕ → Bytes) (s : Progress) (cs : List Call) : Progress :=
  cs.foldl (call stale) s

/-- The ids of a config section. -/
def addIds (s : Progress) (ids : List ℤ) : Progress :=
  { s with parser.mJsonSocIdList := s.parser.mJsonSocIdList ++ ids }

/-- The search for the device's id. -/
def matchSocId (s : Progress) : Progress :=
  { s with parser := s.parser.matchSocId }

end Progress

namespace Format

/-- How the reading of a file ends: with the result -1; with the result 0 for another device, behind
a config section that failed, or because no comma follows directly; by what `stoi` throws. -/
inductive FileEnd
  | failed
  | skipped
  | brokenConfig
  | ended (rest : List Lexeme)
  | threw (e : StoiError)

/-- A top-level member: the tokens behind it unless the reading of the file ends there. -/
def fileMember (stale : ℕ → Bytes) (fuel : ℕ) (key : Bytes) (ts : List Token) (s : Progress) :
    Option (Except FileEnd (List Token) × Progress) :=
  if key = str "config" then
    (config fuel ts).map fun r ↦
      let s := s.addIds r.ids
      match r.ending with
      | .threw e => (.error (.threw e), s)
      | .failed =>
        (.error (if s.matchSocId.parser.Skips then .skipped else .brokenConfig), s.matchSocId)
      | .read rest =>
        (if s.matchSocId.parser.Skips then .error .skipped else .ok rest, s.matchSocId)
  else
    (group fuel key ts).map fun r ↦
      (match r.rest with
        | none => .error .failed
        | some rest => .ok rest,
        s.calls stale r.calls)

/-- What follows a top-level member: another round if it is a comma without a gap before it. -/
def fileNext {α : Type*} (next : List Lexeme → α) (done : List Lexeme → α) : List Lexeme → α
  | ⟨false, .byte 44⟩ :: ls => next ls
  | ls => done ls

/-- The loop of `parseFile`. -/
def fileLoop (stale : ℕ → Bytes) : ℕ → List Lexeme → Progress → Option (FileEnd × Progress)
  | 0, _, _ => none
  | fuel + 1, ls, s =>
    match pair (ls.map Lexeme.token) with
    | some ⟨key, none, rest⟩ =>
      (fileMember stale fuel key rest s).bind fun
        | (.error e, s) => some (e, s)
        | (.ok rest, s) =>
          fileNext (fun ls ↦ fileLoop stale fuel ls s) (fun ls ↦ some (.ended ls, s))
            (ls.drop (ls.length - rest.length))
    | _ => some (.failed, s)

/-- `parseFile` -/
def file (stale : ℕ → Bytes) (fuel : ℕ) (ls : List Lexeme) (s : Progress) :
    Option (FileEnd × Progress) :=
  match ls with
  | ⟨_, .byte 123⟩ :: ls => fileLoop stale fuel ls s
  | _ => some (.failed, s)

/-- The keys of the top-level members that are read, up to a config section. -/
def memberKeys : ℕ → List Lexeme → List Bytes
  | 0, _ => []
  | fuel + 1, ls =>
    match pair (ls.map Lexeme.token) with
    | some ⟨key, none, rest⟩ =>
      if key = str "config" then [key]
      else
        match group fuel key rest with
        | some ⟨_, some rest⟩ =>
          fileNext (fun ls ↦ key :: memberKeys fuel ls) (fun _ ↦ [key])
            (ls.drop (ls.length - rest.length))
        | _ => [key]
    | _ => []

/-- The keys of the top-level members of a file that are read, up to a config section. -/
def fileKeys (fuel : ℕ) : List Lexeme → List Bytes
  | ⟨_, .byte 123⟩ :: ls => memberKeys fuel ls
  | _ => []

/-! ### Every round passes a token -/

/-- The tokens of a pair. -/
theorem tokens_of_pair {ts : List Token} {p : Pair} (h : pair ts = some p) :
    ts = .quoted p.key :: .byte 58 :: (p.value.toList.map .quoted ++ p.rest) := by
  unfold pair at h
  split at h
  · split_ifs at h with hcolon
    subst hcolon
    unfold pairValue at h
    split at h
    · cases h
      rfl
    · cases h
      rfl
    · split_ifs at h
      cases h
      rfl
    · cases h
  · cases h

theorem length_of_pair {ts : List Token} {p : Pair} (h : pair ts = some p) :
    p.rest.length + 2 ≤ ts.length := by
  rw [tokens_of_pair h]
  simp only [List.length_cons, List.length_append]
  omega

/-- The first token behind a pair without a string is an opening bracket. -/
theorem rest_of_pair {ts : List Token} {key : Bytes} {rest : List Token}
    (h : pair ts = some ⟨key, none, rest⟩) :
    rest = [] ∨ ∃ b rest', rest = .byte b :: rest' ∧ (b = 123 ∨ b = 91) := by
  unfold pair at h
  split at h
  · split_ifs at h
    unfold pairValue at h
    split at h
    · cases h
      exact Or.inl rfl
    · cases h
    · split_ifs at h with hb
      cases h
      exact Or.inr ⟨_, _, rfl, hb⟩
    · cases h
  · cases h

theorem length_of_itemLoop {fuel : ℕ} {ts : List Token} {data : Option Bytes} {i : ItemRead}
    {rest : List Token} (h : itemLoop fuel ts data = some i) (hrest : i.rest = some rest) :
    rest.length ≤ ts.length := by
  induction fuel generalizing ts data with
  | zero => cases h
  | succ fuel ih =>
    unfold itemLoop at h
    split at h
    · cases h
      cases hrest
      exact le_rfl
    · next hpair =>
      cases h
      cases hrest
      have := length_of_pair hpair
      simp only at this
      omega
    · next hpair =>
      have hlen := length_of_pair hpair
      split at h
      · have := ih h
        simp only [List.length_cons] at hlen
        omega
      · cases h
        cases hrest
        simp only [List.length_cons] at hlen
        omega
      · cases h
        cases hrest

theorem length_of_item {fuel : ℕ} {ts : List Token} {i : ItemRead} {rest : List Token}
    (h : item fuel ts = some i) (hrest : i.rest = some rest) : rest.length < ts.length := by
  unfold item at h
  split at h
  · cases h
    cases hrest
  · have := length_of_itemLoop h hrest
    simp only [List.length_cons]
    omega
  · cases h
    cases hrest
    simp

theorem length_of_groupWith {loop : Bytes → List Token → Option GroupRead} {grpName : Bytes}
    {ts rest : List Token} {r : GroupRead}
    (hloop : ∀ g ts r rest, loop g ts = some r → r.rest = some rest → rest.length < ts.length)
    (h : groupWith loop grpName ts = some r) (hrest : r.rest = some rest) :
    rest.length < ts.length := by
  unfold groupWith at h
  split at h
  · have := hloop _ _ _ _ h hrest
    simp only [List.length_cons]
    omega
  · cases h
    cases hrest

theorem length_of_member {loop : Bytes → List Token → Option GroupRead} {fuel : ℕ}
    {grpName : Bytes} {ts rest : List Token} {r : GroupRead}
    (hloop : ∀ g ts r rest, loop g ts = some r → r.rest = some rest → rest.length < ts.length)
    (h : member loop fuel grpName ts = some r) (hrest : r.rest = some rest) :
    rest.length < ts.length := by
  unfold member at h
  split at h
  · cases h
    cases hrest
  · next hpair =>
    cases h
    cases hrest
    have := length_of_pair hpair
    simp only at this
    omega
  · next hpair =>
    have hlen := length_of_pair hpair
    simp only at hlen
    split_ifs at h
    · have := length_of_groupWith hloop h hrest
      omega
    · obtain ⟨i, hi, rfl⟩ := Option.map_eq_some_iff.1 h
      have := length_of_item hi hrest
      omega

theorem length_of_groupLoop {fuel : ℕ} {grpName : Bytes} {ts rest : List Token} {r : GroupRead}
    (h : groupLoop fuel grpName ts = some r) (hrest : r.rest = some rest) :
    rest.length < ts.length := by
  induction fuel generalizing grpName ts rest r with
  | zero => cases h
  | succ fuel ih =>
    rw [groupLoop, Option.bind_eq_some_iff] at h
    obtain ⟨m, hm, hthen⟩ := h
    unfold GroupRead.andThen at hthen
    split at hthen
    · next hnone =>
      cases hthen
      rw [hnone] at hrest
      cases hrest
    · next hmrest =>
      have hlen := length_of_member (fun g ts r rest ↦ ih) hm hmrest
      obtain ⟨r', hr', rfl⟩ := Option.map_eq_some_iff.1 hthen
      unfold separator at hr'
      split at hr'
      · have := ih hr' hrest
        simp only [List.length_cons] at hlen
        omega
      · cases hr'
        cases hrest
        simp only [List.length_cons] at hlen
        omega
      · cases hr'
        cases hrest

/-! ### Enough fuel -/

theorem itemLoop_isSome {fuel : ℕ} {ts : List Token} (data : Option Bytes)
    (h : ts.length < fuel) : (itemLoop fuel ts data).isSome := by
  induction fuel generalizing ts data with
  | zero => exact absurd h (Nat.not_lt_zero _)
  | succ fuel ih =>
    unfold itemLoop
    split
    · rfl
    · rfl
    · next hpair =>
      have hlen := length_of_pair hpair
      split
      · simp only [List.length_cons] at hlen
        exact ih _ (by omega)
      · rfl
      · rfl

theorem item_isSome {fuel : ℕ} {ts : List Token} (h : ts.length ≤ fuel) :
    (item fuel ts).isSome := by
  unfold item
  split
  · rfl
  · exact itemLoop_isSome _ (Nat.lt_of_succ_le h)
  · rfl

theorem groupLoop_isSome {fuel : ℕ} (grpName : Bytes) {ts : List Token} (h : ts.length < fuel) :
    (groupLoop fuel grpName ts).isSome := by
  induction fuel generalizing grpName ts with
  | zero => exact absurd h (Nat.not_lt_zero _)
  | succ fuel ih =>
    have hmember : (member (groupLoop fuel) fuel grpName ts).isSome := by
      unfold member
      split
      · rfl
      · rfl
      · next hpair =>
        have hlen := length_of_pair hpair
        simp only at hlen
        split_ifs
        · unfold groupWith
          split
          · simp only [List.length_cons] at hlen
            exact ih _ (by omega)
          · rfl
        · rw [Option.isSome_map]
          exact item_isSome (by omega)
    obtain ⟨m, hm⟩ := Option.isSome_iff_exists.1 hmember
    rw [groupLoop, hm, Option.bind_some]
    unfold GroupRead.andThen
    split
    · rfl
    · next hrest =>
      have hlen := length_of_member (fun _ _ _ _ ↦ length_of_groupLoop) hm hrest
      rw [Option.isSome_map]
      unfold separator
      split
      · simp only [List.length_cons] at hlen
        exact ih _ (by omega)
      · rfl
      · rfl

/-- **A group is read with fuel for each of its tokens.** -/
theorem group_isSome {fuel : ℕ} (grpName : Bytes) {ts : List Token} (h : ts.length ≤ fuel) :
    (group fuel grpName ts).isSome := by
  unfold group groupWith
  split
  · exact groupLoop_isSome _ (Nat.lt_of_succ_le h)
  · rfl

theorem configLoop_isSome {fuel : ℕ} {ts : List Token} (h : ts.length < fuel) :
    (configLoop fuel ts).isSome := by
  induction fuel generalizing ts with
  | zero => exact absurd h (Nat.not_lt_zero _)
  | succ fuel ih =>
    unfold configLoop
    split
    · rfl
    · next hpair =>
      have hlen := length_of_pair hpair
      split
      · rfl
      · split
        · rw [Option.isSome_map]
          simp only [List.length_cons] at hlen
          exact ih (by omega)
        · rfl

theorem config_isSome {fuel : ℕ} {ts : List Token} (h : ts.length ≤ fuel) :
    (config fuel ts).isSome := by
  unfold config
  split
  · rw [Option.isSome_map]
    exact configLoop_isSome (Nat.lt_of_succ_le h)
  · rfl

theorem fileMember_isSome (stale : ℕ → Bytes) {fuel : ℕ} (key : Bytes) {ts : List Token}
    (s : Progress) (h : ts.length ≤ fuel) : (fileMember stale fuel key ts s).isSome := by
  unfold fileMember
  split_ifs
  · rw [Option.isSome_map]
    exact config_isSome h
  · rw [Option.isSome_map]
    exact group_isSome _ h

theorem fileLoop_isSome (stale : ℕ → Bytes) {fuel : ℕ} {ls : List Lexeme} (s : Progress)
    (h : ls.length < fuel) : (fileLoop stale fuel ls s).isSome := by
  induction fuel generalizing ls s with
  | zero => exact absurd h (Nat.not_lt_zero _)
  | succ fuel ih =>
    unfold fileLoop
    split
    · next key rest hpair =>
      have hlen := length_of_pair hpair
      simp only [List.length_map] at hlen
      have hmember := fileMember_isSome stale key s (show rest.length ≤ fuel by omega)
      obtain ⟨⟨r, s'⟩, hr⟩ := Option.isSome_iff_exists.1 hmember
      rw [hr, Option.bind_some]
      rcases r with e | rest'
      · rfl
      · simp only
        unfold fileNext
        split
        · next hdrop =>
          have hdroplen := congrArg List.length hdrop
          simp only [List.length_drop, List.length_cons] at hdroplen
          exact ih _ (by omega)
        · rfl
    · rfl

/-- **A file is read with fuel for each of its tokens.** -/
theorem file_isSome (stale : ℕ → Bytes) {fuel : ℕ} {ls : List Lexeme} (s : Progress)
    (h : ls.length ≤ fuel) : (file stale fuel ls s).isSome := by
  unfold file
  split
  · exact fileLoop_isSome _ _ (Nat.lt_of_succ_le h)
  · rfl

/-- A file that does not open with a bracket fails. -/
theorem file_of_not_open {stale : ℕ → Bytes} {fuel : ℕ} {ls : List Lexeme}
    (h : ¬ ∃ gap ls', ls = ⟨gap, .byte 123⟩ :: ls') (s : Progress) :
    file stale fuel ls s = some (.failed, s) := by
  unfold file
  split
  · exact absurd ⟨_, _, rfl⟩ h
  · rfl

/-! ### A round of the loop over the top-level members -/

/-- A group among the top-level members is read, and what follows it decides how the file goes
on. -/
theorem fileLoop_group {stale : ℕ → Bytes} {fuel : ℕ} {key : Bytes} {ls ls' : List Lexeme}
    {body : List Token} {calls : List Call} (hkey : key ≠ str "config")
    (htokens : ls.map Lexeme.token = .quoted key :: .byte 58 :: .byte 123 :: body)
    (hgroup : group fuel key (.byte 123 :: body) = some ⟨calls, some (ls'.map Lexeme.token)⟩)
    (hsuffix : ls' <:+ ls) (s : Progress) :
    fileLoop stale (fuel + 1) ls s =
      fileNext (fun ls ↦ fileLoop stale fuel ls (s.calls stale calls))
        (fun ls ↦ some (.ended ls, s.calls stale calls)) ls' := by
  have hpair : pair (ls.map Lexeme.token) = some ⟨key, none, .byte 123 :: body⟩ := by
    rw [htokens]
    rfl
  have hdrop : ls.drop (ls.length - (ls'.map Lexeme.token).length) = ls' := by
    rw [List.length_map]
    exact (List.suffix_iff_eq_drop.1 hsuffix).symm
  rw [fileLoop, hpair]
  simp only [fileMember, if_neg hkey, hgroup, Option.map_some, Option.bind_some, hdrop]

/-- The keys that are read with it. -/
theorem memberKeys_group {fuel : ℕ} {key : Bytes} {ls ls' : List Lexeme} {body : List Token}
    {calls : List Call} (hkey : key ≠ str "config")
    (htokens : ls.map Lexeme.token = .quoted key :: .byte 58 :: .byte 123 :: body)
    (hgroup : group fuel key (.byte 123 :: body) = some ⟨calls, some (ls'.map Lexeme.token)⟩)
    (hsuffix : ls' <:+ ls) :
    memberKeys (fuel + 1) ls =
      fileNext (fun ls ↦ key :: memberKeys fuel ls) (fun _ ↦ [key]) ls' := by
  have hpair : pair (ls.map Lexeme.token) = some ⟨key, none, .byte 123 :: body⟩ := by
    rw [htokens]
    rfl
  have hdrop : ls.drop (ls.length - (ls'.map Lexeme.token).length) = ls' := by
    rw [List.length_map]
    exact (List.suffix_iff_eq_drop.1 hsuffix).symm
  rw [memberKeys, hpair]
  simp only [if_neg hkey, hgroup, hdrop]

end Format

end SensingHub.Json
