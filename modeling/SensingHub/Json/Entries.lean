import SensingHub.Json.Leftover
import SensingHub.Json.Outline

/-!
# The entries that items make

An item makes an entry of the name table or of the communication table when the scratch members hold
one behind its key, and an entry of the table of hub names in the `link_name` case. Which entries a
sequence of items makes is a matter of the scratch members it starts from alone; the tables behind
it are those before with these entries inserted or assigned in order.
-/

namespace SensingHub.Json

open CLib (str atoi)

/-! ### The uninitialised array -/

/-- A call with the data it has when the uninitialised array reads as `value`. -/
def Call.fill (value : Bytes) (c : Call) : Call :=
  { c with data := some (c.data.getD value) }

/-- Calls with the data they have when the array reads as `stale` says, from the `n`-th item on. -/
def fillCalls (stale : ℕ → Bytes) : ℕ → List Call → List Call
  | _, [] => []
  | n, c :: cs => c.fill (stale n) :: fillCalls stale (n + 1) cs

theorem parser_calls_fill (stale : ℕ → Bytes) (s : Progress) (cs : List Call) :
    (s.calls stale cs).parser = s.parser.readCalls (fillCalls stale s.items cs) := by
  induction cs generalizing s with
  | nil => rfl
  | cons c cs ih => exact ih (s.call stale c)

/-! ### One item -/

namespace Scratch

/-- The scratch members behind the key of an item. -/
def readCall (s : Scratch) (c : Call) : Scratch :=
  s.read c.grpName c.key (c.data.getD [])

/-- The entry of the name table that an item makes. -/
def nameEntry (s : Scratch) (c : Call) : Option (Bytes × ℤ) :=
  if (s.readCall c).HasName then
    some ((s.readCall c).mPlatformId, (s.readCall c).mSensingHubId)
  else none

/-- The entry of the communication table that an item makes. -/
def commEntry (s : Scratch) (c : Call) : Option (ℤ × Bytes × ℤ) :=
  if (s.readCall c).HasComm then
    some ((s.readCall c).mSensingHubId, (s.readCall c).mClientCommType,
      (s.readCall c).mClientCommValue)
  else none

/-- The entry of the table of hub names that an item makes. -/
def hubNameEntry (s : Scratch) (c : Call) : Option (ℤ × Bytes) :=
  if (c.grpName = str ".client_comm" ∨ s.mIsClientCommGrp = true) ∧ c.key = str "link_name" ∧
      c.data.getD [] ≠ str "apps" then
    some (s.mSensingHubId, c.data.getD [])
  else none

/-- The hub id that an item lists. -/
def hubIdEntry (_ : Scratch) (c : Call) : Option ℤ :=
  if c.key = str "sensing_hub_id" then some (atoi (c.data.getD [])) else none

/-- What items make, in order. -/
def along {α : Type} (entry : Scratch → Call → Option α) : Scratch → List Call → List α
  | _, [] => []
  | s, c :: cs =>
    (entry s c).toList ++ (s.update c.grpName c.key (c.data.getD [])).along entry cs

end Scratch

/-- What items make is made by one of them, behind those before it. -/
theorem Scratch.mem_along_iff {α : Type} {entry : Scratch → Call → Option α} {s : Scratch}
    {cs : List Call} {a : α} :
    a ∈ s.along entry cs ↔
      ∃ pre c post, cs = pre ++ c :: post ∧ entry (s.readCalls pre) c = some a := by
  induction cs generalizing s with
  | nil => simp [Scratch.along]
  | cons c cs ih =>
    rw [Scratch.along, List.mem_append, Option.mem_toList, ih]
    constructor
    · rintro (h | ⟨pre, d, post, rfl, h⟩)
      · exact ⟨[], c, cs, rfl, h⟩
      · exact ⟨c :: pre, d, post, rfl, h⟩
    · rintro ⟨_ | ⟨d, pre⟩, e, post, hcs, h⟩
      · obtain ⟨rfl, rfl⟩ := List.cons.inj hcs
        exact Or.inl h
      · obtain ⟨rfl, rfl⟩ := List.cons.inj hcs
        exact Or.inr ⟨pre, e, post, rfl, h⟩

/-! ### Items in a row -/

/-- What an item adds to a part of the parser object, items add in a row. -/
theorem foldl_along {α β : Type} (part : QshJsonParser → β) (op : β → α → β)
    {entry : Scratch → Call → Option α}
    (h : ∀ p c, part (p.readCall c) = (entry p.scratch c).toList.foldl op (part p))
    (p : QshJsonParser) (cs : List Call) :
    part (p.readCalls cs) = (p.scratch.along entry cs).foldl op (part p) := by
  induction cs generalizing p with
  | nil => rfl
  | cons c cs ih =>
    have hcs := ih (p.readCall c)
    rw [scratch_readCall, h] at hcs
    rw [Scratch.along, List.foldl_append]
    exact hcs

theorem names_readCalls (p : QshJsonParser) (cs : List Call) :
    (p.readCalls cs).mSensingHubNameIdMap =
      p.mSensingHubNameIdMap.insertAll (p.scratch.along Scratch.nameEntry cs) := by
  refine foldl_along QshJsonParser.mSensingHubNameIdMap _ (fun p c ↦ ?_) p cs
  rw [QshJsonParser.readCall, QshJsonParser.updateSensingHubInfo_eq, Scratch.nameEntry,
    Scratch.readCall]
  dsimp only
  split_ifs <;> rfl

theorem comms_readCalls (p : QshJsonParser) (cs : List Call) :
    (p.readCalls cs).mSensingHubCommMap =
      p.mSensingHubCommMap.insertAll (p.scratch.along Scratch.commEntry cs) := by
  refine foldl_along QshJsonParser.mSensingHubCommMap _ (fun p c ↦ ?_) p cs
  rw [QshJsonParser.readCall, QshJsonParser.updateSensingHubInfo_eq, Scratch.commEntry,
    Scratch.readCall]
  dsimp only
  split_ifs <;> rfl

theorem hubNames_readCalls (p : QshJsonParser) (cs : List Call) :
    (p.readCalls cs).mSensingHubIdNameMap =
      p.mSensingHubIdNameMap.assignAll (p.scratch.along Scratch.hubNameEntry cs) := by
  refine foldl_along QshJsonParser.mSensingHubIdNameMap _ (fun p c ↦ ?_) p cs
  rw [QshJsonParser.readCall, QshJsonParser.updateSensingHubInfo_eq, Scratch.hubNameEntry]
  dsimp only
  by_cases hnames : p.NamesHub c.grpName c.key (c.data.getD [])
  · rw [if_pos hnames, if_pos (by exact hnames)]
    rfl
  · rw [if_neg hnames, if_neg (by exact hnames)]
    rfl

theorem hubIds_readCalls (p : QshJsonParser) (cs : List Call) :
    (p.readCalls cs).mHubIds = p.mHubIds ++ p.scratch.along Scratch.hubIdEntry cs := by
  have hcall (p : QshJsonParser) (c : Call) : (p.readCall c).mHubIds =
      (Scratch.hubIdEntry p.scratch c).toList.foldl (fun ids id ↦ ids ++ [id]) p.mHubIds := by
    rw [QshJsonParser.readCall, QshJsonParser.updateSensingHubInfo_eq, Scratch.hubIdEntry]
    dsimp only
    split_ifs <;> rfl
  have hfold := foldl_along QshJsonParser.mHubIds (fun ids id ↦ ids ++ [id]) hcall p cs
  rw [List.foldl_append_eq_append, ← List.flatMap_def, List.flatMap_singleton'] at hfold
  exact hfold

end SensingHub.Json
