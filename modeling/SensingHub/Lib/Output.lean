import SensingHub.Lib.CString

/-!
# Output streams

A stream into a buffer takes bytes as long as they fit; a stream without a buffer takes all, and is
there to count them. What an encoder does is said by the bytes it emits: it writes just these, and
fails exactly if they do not fit.
-/

/-- A stream into a buffer of some size, or into none, and what has been written to it. -/
@[ext]
structure Output where
  maxSize : Option ℕ
  written : Bytes
  le_maxSize : ∀ m ∈ maxSize, written.length ≤ m

namespace Output

/-- Write some bytes, if they fit. -/
def write (b : Bytes) (out : Output) : Option Output :=
  if h : ∀ m ∈ out.maxSize, (out.written ++ b).length ≤ m then
    some ⟨out.maxSize, out.written ++ b, h⟩
  else none

/-- A stream into an empty buffer. -/
def fromBuffer (maxSize : ℕ) : Output :=
  ⟨some maxSize, [], fun _ _ ↦ Nat.zero_le _⟩

/-- A stream that counts. -/
def sizing : Output :=
  ⟨none, [], nofun⟩

theorem write_nil (out : Output) : write [] out = some out := by
  rw [write, dif_pos (by rw [List.append_nil]; exact out.le_maxSize)]
  exact congrArg some (Output.ext rfl (List.append_nil _))

theorem write_append (b b' : Bytes) (out : Output) :
    write (b ++ b') out = (write b out).bind (write b') := by
  unfold write
  by_cases hb : ∀ m ∈ out.maxSize, (out.written ++ b).length ≤ m
  · rw [dif_pos hb, Option.bind_some]
    simp only [List.append_assoc]
  · have hall : ¬ ∀ m ∈ out.maxSize, (out.written ++ (b ++ b')).length ≤ m := by
      refine fun h ↦ hb fun m hm ↦ Nat.le_trans ?_ (h m hm)
      simp only [List.length_append]
      omega
    rw [dif_neg hb, dif_neg hall, Option.bind_none]

theorem written_of_write {b : Bytes} {out next : Output} (h : write b out = some next) :
    next.written = out.written ++ b := by
  unfold write at h
  split at h <;> cases h
  rfl

theorem write_sizing (b : Bytes) : write b sizing = some ⟨none, b, nofun⟩ := by
  rw [write, dif_pos nofun]
  rfl

/-- A buffer takes what is not longer than it. -/
theorem exists_write_fromBuffer_iff {b : Bytes} {maxSize : ℕ} :
    (∃ out, write b (fromBuffer maxSize) = some out) ↔ b.length ≤ maxSize := by
  unfold write
  constructor
  · rintro ⟨out, h⟩
    split at h
    · next hle => exact hle maxSize rfl
    · cases h
  · intro h
    have hle : ∀ m ∈ (fromBuffer maxSize).maxSize,
        ((fromBuffer maxSize).written ++ b).length ≤ m := by
      rintro _ ⟨⟩
      exact h
    exact ⟨_, dif_pos hle⟩

/-- The encoder writes `b`, and fails exactly if it does not fit. -/
def Emits (e : Output → Option Output) (b : Bytes) : Prop :=
  ∀ out, e out = out.write b

variable {e e' : Output → Option Output} {b b' : Bytes}

/-- One encoder after another. -/
theorem Emits.bind (h : Emits e b) (h' : Emits e' b') :
    Emits (fun out ↦ (e out).bind e') (b ++ b') := by
  intro out
  rw [write_append]
  simp only [h out]
  exact Option.bind_congr fun next _ ↦ h' next

end Output
