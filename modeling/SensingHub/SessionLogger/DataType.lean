import SensingHub.Discovery.Request
import SensingHub.Lib.HashTable

/-!
# The data types of sensors, for loggers

`LoggerFactory` keeps a data type for each sensor, as `std::string`s in an `std::unordered_map` that
the process has one of. `getDataType` gives out a pointer to the characters of such a string, which
is read when the mutex has been released and others have changed the map.

To its clients it is a register that is written once for each sensor: `firstType`. Whatever calls
there are, in whatever order they take the mutex, a pointer reads at all later times what was the
first data type of the sensor when it was given out (`dataTypes_kept`).
-/

namespace SensingHub.SessionLogger

open Discovery (Suid suidSensor)

/-! ### The cache -/

/-- What the standard library leaves open: `std::hash<std::string>`, and the numbers of buckets. -/
structure StdLib where
  hash : Bytes → ℕ
  buckets : ℕ → ℕ → ℕ
  buckets_pos : ∀ n m, 0 < buckets n m

/-- A library that adds up bytes, and doubles the buckets when there are more entries than that. -/
def StdLib.doubling : StdLib where
  hash b := b.foldl (fun n x ↦ 31 * n + x.toNat) 7
  buckets n m := if m ≤ n ∧ 0 < n then n else 2 * n + 1
  buckets_pos n m := by split <;> omega

/-- A `suid` in memory. -/
def suidBytes (sensorUid : Suid) : Bytes :=
  Wire.littleEndian 8 sensorUid.low.toNat ++ Wire.littleEndian 8 sensorUid.high.toNat

/-- `SuidHash` -/
def suidHash (std : StdLib) (sensorUid : Suid) : ℕ :=
  std.hash (suidBytes sensorUid)

/-- `SuidEq` -/
def suidEq (a b : Suid) : Bool :=
  a.low == b.low && a.high == b.high

theorem suidEq_iff {a b : Suid} : suidEq a b = true ↔ a = b := by
  cases a
  cases b
  simp [suidEq]

/-- The hash and the equality of the cache. -/
def suidHashing (std : StdLib) : Hashing Suid where
  hash := suidHash std
  eqv := suidEq
  buckets := std.buckets
  hash_eq h := congrArg (suidHash std) (suidEq_iff.1 h)
  eqv_refl _ := suidEq_iff.2 rfl
  eqv_symm h := suidEq_iff.2 (suidEq_iff.1 h).symm
  eqv_trans h h' := suidEq_iff.2 ((suidEq_iff.1 h).trans (suidEq_iff.1 h'))
  buckets_pos := std.buckets_pos

/-- The type of `sDtCache`. -/
abbrev DtCache (std : StdLib) :=
  HashTable (suidHashing std) Bytes

variable {std : StdLib}

/-- `sDtCache` -/
def DtCache.initial (std : StdLib) : DtCache std :=
  (HashTable.empty (suidHashing std) Bytes).emplace suidSensor (CLib.str "suid")

/-- What `getDataType` returns: the literal, or the `c_str()` of an entry. -/
inductive TypePtr
  | unknown
  | entry (a : ℕ)
  deriving DecidableEq, Repr

/-- Read a C string, which a NUL follows. -/
def DtCache.read (c : DtCache std) : TypePtr → Option Bytes
  | .unknown => CLib.cString (CLib.str "unknown" ++ [0])
  | .entry a => (c.value a).bind fun s ↦ CLib.cString (s ++ [0])

/-- `LoggerFactory::getDataType` -/
def getDataType (c : DtCache std) (sensorUid : Suid) : TypePtr :=
  match c.find sensorUid with
  | none => .unknown
  | some a => .entry a

/-- What is logged about a data type that differs from the one that is known. -/
structure Mismatch where
  sensorUid : Suid
  cached : Bytes
  new : Bytes
  deriving DecidableEq, Repr

/-- `LoggerFactory::updateDataType` -/
def updateDataType (c : DtCache std) (sensorUid : Suid) (datatype : Bytes) :
    DtCache std × Option Mismatch :=
  match c.find sensorUid with
  | none => (c.emplace sensorUid datatype, none)
  | some a =>
    (c, (c.value a).bind fun cached ↦
      if cached ≠ datatype then some ⟨sensorUid, cached, datatype⟩ else none)

/-! ### Calls -/

/-- The calls of clients, in the order in which they get the mutex. -/
inductive TypeCall
  | get (sensorUid : Suid)
  | update (sensorUid : Suid) (datatype : Bytes)
  deriving DecidableEq, Repr

/-- The cache, the pointers that have been given out and what has been logged. -/
structure TypeService (std : StdLib) where
  cache : DtCache std
  held : List TypePtr
  logged : List Mismatch

namespace TypeService

/-- Nothing has been called. -/
def initial (std : StdLib) : TypeService std :=
  ⟨.initial std, [], []⟩

/-- One call. -/
def perform (p : TypeService std) : TypeCall → TypeService std
  | .get sensorUid => { p with held := p.held ++ [getDataType p.cache sensorUid] }
  | .update sensorUid datatype =>
    let (c, mismatch) := updateDataType p.cache sensorUid datatype
    { p with cache := c, logged := p.logged ++ mismatch.toList }

/-- Calls one after another. -/
def performAll (p : TypeService std) (cs : List TypeCall) : TypeService std :=
  cs.foldl perform p

end TypeService

/-! ### What clients see -/

/-- The data type that a sensor was given first. -/
def firstType (sensorUid : Suid) (cs : List TypeCall) : Option Bytes :=
  cs.findSome? fun c ↦ match c with
    | .update u datatype => if u = sensorUid then some datatype else none
    | .get _ => none

/-- What is there before all calls. -/
def fixedTypes : List TypeCall :=
  [.update suidSensor (CLib.str "suid")]

/-- What is read of the pointers that are given out, by what has been called before. -/
def typesSeen (before : List TypeCall) : List TypeCall → List Bytes
  | [] => []
  | .get u :: cs =>
    ((firstType u before).getD (CLib.str "unknown")).takeWhile (· ≠ 0) ::
      typesSeen (before ++ [.get u]) cs
  | .update u datatype :: cs => typesSeen (before ++ [.update u datatype]) cs

/-- The data types that are not the first ones of their sensors. -/
def conflicts (before : List TypeCall) : List TypeCall → List Mismatch
  | [] => []
  | .get u :: cs => conflicts (before ++ [.get u]) cs
  | .update u datatype :: cs =>
    ((firstType u before).bind fun first ↦
      if first ≠ datatype then some ⟨u, first, datatype⟩ else none).toList ++
        conflicts (before ++ [.update u datatype]) cs

theorem firstType_append_get (u v : Suid) (before : List TypeCall) :
    firstType u (before ++ [.get v]) = firstType u before := by
  rw [firstType, List.findSome?_append]
  exact Option.or_none

theorem firstType_append_update (u v : Suid) (datatype : Bytes) (before : List TypeCall) :
    firstType u (before ++ [.update v datatype]) =
      (firstType u before).or (if v = u then some datatype else none) := by
  rw [firstType, List.findSome?_append, List.findSome?_singleton]
  rfl

/-! ### One call -/

theorem cString_concat (s : Bytes) : CLib.cString (s ++ [0]) = some (s.takeWhile (· ≠ 0)) := by
  induction s with
  | nil => rfl
  | cons b s ih =>
    rw [List.cons_append, CLib.cString, List.takeWhile_cons]
    by_cases hb : b = 0
    · simp [hb]
    · simp [hb, ih]

/-- The cache holds what it has been told first. -/
def Knows (c : DtCache std) (before : List TypeCall) : Prop :=
  ∀ u, c.get? u = firstType u before

/-- A pointer reads as a data type. -/
def Reads (c : DtCache std) (ptr : TypePtr) (datatype : Bytes) : Prop :=
  c.read ptr = some datatype

section

variable {c : DtCache std} {before : List TypeCall}

theorem Knows.emplace (h : Knows c before) (u : Suid) (datatype : Bytes) :
    Knows (c.emplace u datatype) (before ++ [.update u datatype]) := by
  intro v
  have heq : (suidHashing std).eqv u v = true ↔ u = v := suidEq_iff
  rw [HashTable.get?_emplace, h v, firstType_append_update]
  simp only [heq]

theorem knows_initial (std : StdLib) : Knows (.initial std) fixedTypes :=
  have hempty : Knows (HashTable.empty (suidHashing std) Bytes) [] := fun _ ↦ HashTable.get?_empty _
  hempty.emplace suidSensor _

theorem Reads.emplace {ptr : TypePtr} {datatype : Bytes} (h : Reads c ptr datatype) (u : Suid)
    (s : Bytes) : Reads (c.emplace u s) ptr datatype := by
  cases ptr with
  | unknown => exact h
  | entry a =>
    obtain ⟨cached, hcached, hread⟩ := Option.bind_eq_some_iff.1 h
    exact Option.bind_eq_some_iff.2 ⟨cached, HashTable.value_emplace hcached u s, hread⟩

theorem Reads.updateDataType {ptr : TypePtr} {s : Bytes} (h : Reads c ptr s) (u : Suid)
    (datatype : Bytes) : Reads (updateDataType c u datatype).1 ptr s := by
  rw [SessionLogger.updateDataType]
  split
  · exact h.emplace u datatype
  · exact h

theorem Reads.performAll {p : TypeService std} {ptr : TypePtr} {s : Bytes}
    (h : Reads p.cache ptr s) (cs : List TypeCall) : Reads (p.performAll cs).cache ptr s := by
  induction cs generalizing p with
  | nil => exact h
  | cons c cs ih =>
    cases c with
    | get u => exact ih h
    | update u datatype => exact ih (h.updateDataType u datatype)

/-- **What a pointer reads when it is given out.** -/
theorem reads_getDataType (h : Knows c before) (u : Suid) : Reads c (getDataType c u)
    (((firstType u before).getD (CLib.str "unknown")).takeWhile (· ≠ 0)) := by
  rw [← h u, getDataType, HashTable.get?]
  cases hfind : c.find u with
  | none => exact cString_concat _
  | some a =>
    obtain ⟨e, he, -⟩ := HashTable.find_eq_some_iff.1 hfind
    have hvalue : c.value a = some e.2 := by rw [HashTable.value, he, Option.map_some]
    show (c.value a).bind _ = some (((c.value a).getD _).takeWhile _)
    rw [hvalue]
    exact cString_concat e.2

/-- An update of what is known already changes nothing, and is logged if it differs. -/
theorem updateDataType_eq (h : Knows c before) (u : Suid) (datatype : Bytes) :
    Knows (updateDataType c u datatype).1 (before ++ [.update u datatype]) ∧
      (updateDataType c u datatype).2 = (firstType u before).bind fun first ↦
        if first ≠ datatype then some ⟨u, first, datatype⟩ else none := by
  have hu := h u
  rw [updateDataType]
  rw [HashTable.get?] at hu
  cases hfind : c.find u with
  | none =>
    rw [hfind] at hu
    rw [← hu]
    exact ⟨h.emplace u datatype, rfl⟩
  | some a =>
    have hsame : c.emplace u datatype = c := HashTable.emplace_of_find_eq_some hfind
    have hknows := h.emplace u datatype
    rw [hsame] at hknows
    rw [hfind, Option.bind_some] at hu
    rw [← hu]
    exact ⟨hknows, rfl⟩

end

/-! ### All calls -/

/-- The service is in order: its pointers read as they are to, and the rest has been logged. -/
structure InOrder (p : TypeService std) (before : List TypeCall) (seen : List Bytes)
    (logged : List Mismatch) : Prop where
  knows : Knows p.cache before
  reads : List.Forall₂ (Reads p.cache) p.held seen
  logged : p.logged = logged

theorem InOrder.performAll {p : TypeService std} {before : List TypeCall} {seen : List Bytes}
    {logged : List Mismatch} (h : InOrder p before seen logged) (cs : List TypeCall) :
    InOrder (p.performAll cs) (before ++ cs) (seen ++ typesSeen before cs)
      (logged ++ conflicts before cs) := by
  induction cs generalizing p before seen logged with
  | nil =>
    rw [List.append_nil, typesSeen, conflicts, List.append_nil, List.append_nil]
    exact h
  | cons c cs ih =>
    cases c with
    | get u =>
      have hstep : InOrder (p.perform (.get u)) (before ++ [.get u])
          (seen ++ [((firstType u before).getD (CLib.str "unknown")).takeWhile (· ≠ 0)]) logged :=
        { knows := fun v ↦ (h.knows v).trans (firstType_append_get v u before).symm
          reads := List.rel_append h.reads (.cons (reads_getDataType h.knows u) .nil)
          logged := h.logged }
      have hall := ih hstep
      rwa [List.append_assoc, List.append_assoc] at hall
    | update u datatype =>
      obtain ⟨hknows, hlogged⟩ := updateDataType_eq h.knows u datatype
      have hstep : InOrder (p.perform (.update u datatype)) (before ++ [.update u datatype]) seen
          (logged ++ ((firstType u before).bind fun first ↦
            if first ≠ datatype then some ⟨u, first, datatype⟩ else none).toList) :=
        { knows := hknows
          reads := h.reads.imp fun _ _ hreads ↦ hreads.updateDataType u datatype
          logged := by rw [← h.logged, ← hlogged]; rfl }
      have hall := ih hstep
      rwa [List.append_assoc, List.append_assoc] at hall

/-- **A data type is kept, and so are the pointers to it**: whatever is called, and in whatever
order, a pointer that has been given out reads then and at all later times as the first data type of
its sensor at that time, or as `unknown`; and exactly the updates with another one are logged. -/
theorem dataTypes_kept (std : StdLib) (cs later : List TypeCall) :
    List.Forall₂ (Reads ((TypeService.initial std).performAll (cs ++ later)).cache)
        ((TypeService.initial std).performAll cs).held (typesSeen fixedTypes cs) ∧
      ((TypeService.initial std).performAll cs).logged = conflicts fixedTypes cs := by
  have hinit : InOrder (.initial std) fixedTypes [] [] := ⟨knows_initial std, .nil, rfl⟩
  have hall := hinit.performAll cs
  refine ⟨hall.reads.imp fun ptr s hreads ↦ ?_, hall.logged⟩
  have hlater := hreads.performAll later
  rwa [TypeService.performAll, TypeService.performAll, ← List.foldl_append] at hlater

/-- Two sensors, of which the second is given another data type later. -/
def twoSensors : List TypeCall :=
  [.get ⟨1, 2⟩, .update ⟨1, 2⟩ (CLib.str "accel"), .update ⟨3, 4⟩ (CLib.str "gyro"), .get ⟨1, 2⟩,
    .update ⟨3, 4⟩ (CLib.str "mag"), .get ⟨3, 4⟩]

/-- The pointers stay as they are when a third sensor makes the table grow. -/
theorem dataTypes_kept_twoSensors :
    let p := TypeService.initial .doubling
    let later := [TypeCall.update ⟨5, 6⟩ (CLib.str "mag")]
    (p.performAll twoSensors).cache.buckets.length = 3 ∧
      (p.performAll (twoSensors ++ later)).cache.buckets.length = 7 ∧
      List.Forall₂ (Reads (p.performAll (twoSensors ++ later)).cache) (p.performAll twoSensors).held
        [CLib.str "unknown", CLib.str "accel", CLib.str "gyro"] ∧
      (p.performAll twoSensors).logged = [⟨⟨3, 4⟩, CLib.str "gyro", CLib.str "mag"⟩] := by
  obtain ⟨hreads, hlogged⟩ := dataTypes_kept .doubling twoSensors
    [.update ⟨5, 6⟩ (CLib.str "mag")]
  exact ⟨by decide +kernel, by decide +kernel, hreads, hlogged⟩

end SensingHub.SessionLogger
