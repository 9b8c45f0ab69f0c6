import Mathlib.Data.List.Flatten
import SensingHub.Lib.CString
import SensingHub.Lib.Decoding

/-!
# The wire format of protocol buffers

A message is a sequence of fields, each a number and a value behind a tag that holds the number and
the type of the value: a varint, four or eight bytes in little-endian order, or a length and as many
bytes. `encode` writes a message, `decode` reads one, up to the first field it cannot read, and says
where in the message each field has its contents.

`decode_encode` is the round trip, with `layout` for the places; `exists_of_mem_layout` says that
the contents of a field stand at its place. `decoding` is a message as the fields of a decoder that
calls back. Lengths and numbers are not limited here.
-/

namespace Wire

/-! ### Varints -/

/-- A number in groups of seven bits, the lowest first; every byte but the last has its high bit
set. -/
def varint (n : ℕ) : Bytes :=
  if n < 128 then [UInt8.ofNat n] else UInt8.ofNat (n % 128 + 128) :: varint (n / 128)
  termination_by n

/-- The number at the start of some bytes, and the bytes behind it. -/
def readVarint : Bytes → Option (ℕ × Bytes)
  | [] => none
  | b :: bs =>
    if b < 128 then some (b.toNat, bs)
    else (readVarint bs).map fun r ↦ (b.toNat - 128 + 128 * r.1, r.2)

theorem varint_of_lt {n : ℕ} (h : n < 128) : varint n = [UInt8.ofNat n] := by
  rw [varint, if_pos h]

theorem varint_of_le {n : ℕ} (h : 128 ≤ n) :
    varint n = UInt8.ofNat (n % 128 + 128) :: varint (n / 128) := by
  rw [varint, if_neg (by omega)]

theorem toNat_ofNat {n : ℕ} (h : n < 256) : (UInt8.ofNat n).toNat = n := by
  rw [UInt8.toNat_ofNat']
  exact Nat.mod_eq_of_lt h

/-- **Varints read back.** -/
theorem readVarint_varint (n : ℕ) (rest : Bytes) :
    readVarint (varint n ++ rest) = some (n, rest) := by
  induction n using Nat.strongRecOn with
  | ind n ih =>
    rcases Nat.lt_or_ge n 128 with hlt | hle
    · have hbyte : UInt8.ofNat n < 128 := by
        rw [UInt8.lt_iff_toNat_lt, toNat_ofNat (by omega)]
        exact hlt
      rw [varint_of_lt hlt, List.singleton_append, readVarint, if_pos hbyte, toNat_ofNat (by omega)]
    · have hbyte : ¬ UInt8.ofNat (n % 128 + 128) < 128 := by
        rw [UInt8.lt_iff_toNat_lt, toNat_ofNat (by omega)]
        show ¬ n % 128 + 128 < 128
        omega
      rw [varint_of_le hle, List.cons_append, readVarint, if_neg hbyte, ih (n / 128) (by omega),
        Option.map_some, toNat_ofNat (by omega)]
      have hn : n % 128 + 128 - 128 + 128 * (n / 128) = n := by omega
      rw [hn]

theorem length_varint_pos (n : ℕ) : 0 < (varint n).length := by
  rw [varint]
  split <;> exact Nat.succ_pos _

theorem length_varint_of_lt {n : ℕ} (h : n < 128) : (varint n).length = 1 := by
  rw [varint_of_lt h, List.length_singleton]

/-- A varint ends with its first byte below 128. -/
theorem readVarint_ends {b rest : Bytes} {n : ℕ} (h : readVarint b = some (n, rest)) :
    ∃ pre c, b = pre ++ c :: rest ∧ c < 128 := by
  induction b generalizing n with
  | nil => cases h
  | cons c b ih =>
    rw [readVarint] at h
    split at h
    · next hlt =>
      cases h
      exact ⟨[], c, rfl, hlt⟩
    · obtain ⟨r, hr, hrest⟩ := Option.map_eq_some_iff.1 h
      cases hrest
      obtain ⟨pre, d, rfl, hd⟩ := ih (n := r.1) hr
      exact ⟨c :: pre, d, rfl, hd⟩

theorem readVarint_length {b rest : Bytes} {n : ℕ} (h : readVarint b = some (n, rest)) :
    rest.length < b.length := by
  obtain ⟨pre, c, rfl, -⟩ := readVarint_ends h
  rw [List.length_append, List.length_cons]
  omega

/-! ### Numbers of a fixed size -/

/-- The low `k` bytes of a number. -/
def littleEndian : ℕ → ℕ → Bytes
  | 0, _ => []
  | k + 1, n => UInt8.ofNat (n % 256) :: littleEndian k (n / 256)

/-- The number that some bytes are. -/
def ofLittleEndian : Bytes → ℕ
  | [] => 0
  | b :: bs => b.toNat + 256 * ofLittleEndian bs

@[simp] theorem length_littleEndian (k n : ℕ) : (littleEndian k n).length = k := by
  induction k generalizing n with
  | zero => rfl
  | succ k ih => rw [littleEndian, List.length_cons, ih]

theorem ofLittleEndian_littleEndian {k n : ℕ} (h : n < 256 ^ k) :
    ofLittleEndian (littleEndian k n) = n := by
  induction k generalizing n with
  | zero =>
    rw [Nat.pow_zero, Nat.lt_one_iff] at h
    exact h.symm
  | succ k ih =>
    have hdiv : n / 256 < 256 ^ k := by
      rw [Nat.pow_succ] at h
      exact Nat.div_lt_of_lt_mul (by omega)
    rw [littleEndian, ofLittleEndian, ih hdiv, toNat_ofNat (Nat.mod_lt n (by decide))]
    omega

theorem littleEndian_ofLittleEndian (b : Bytes) : littleEndian b.length (ofLittleEndian b) = b := by
  induction b with
  | nil => rfl
  | cons c b ih =>
    have hlt := c.toNat_lt
    have hmod : (c.toNat + 256 * ofLittleEndian b) % 256 = c.toNat := by omega
    have hdiv : (c.toNat + 256 * ofLittleEndian b) / 256 = ofLittleEndian b := by omega
    rw [List.length_cons, ofLittleEndian, littleEndian, hmod, hdiv, ih, UInt8.ofNat_toNat]

theorem ofLittleEndian_lt (b : Bytes) : ofLittleEndian b < 256 ^ b.length := by
  induction b with
  | nil => exact Nat.one_pos
  | cons c b ih =>
    have hlt := c.toNat_lt
    rw [List.length_cons, Nat.pow_succ, ofLittleEndian]
    omega

/-! ### Fields -/

/-- The value of a field. -/
inductive Value
  | varint (n : ℕ)
  | fixed64 (v : UInt64)
  | bytes (b : Bytes)
  | fixed32 (v : UInt32)
  deriving DecidableEq, Repr

namespace Value

/-- The type of a value, as its tag has it. -/
def wireType : Value → ℕ
  | .varint _ => 0
  | .fixed64 _ => 1
  | .bytes _ => 2
  | .fixed32 _ => 5

/-- The contents of a value that a reader is pointed to. -/
def content : Value → Bytes
  | .bytes b => b
  | _ => []

/-- How many bytes they take. -/
def size (v : Value) : ℕ :=
  v.content.length

/-- A value behind its tag. -/
def encode : Value → Bytes
  | .varint n => Wire.varint n
  | .fixed64 v => littleEndian 8 v.toNat
  | .bytes b => Wire.varint b.length ++ b
  | .fixed32 v => littleEndian 4 v.toNat

/-- The contents end a value. -/
theorem exists_encode_eq (v : Value) : ∃ lead, v.encode = lead ++ v.content := by
  cases v with
  | bytes b => exact ⟨Wire.varint b.length, rfl⟩
  | varint | fixed64 | fixed32 => exact ⟨_, (List.append_nil _).symm⟩

theorem wireType_lt (v : Value) : v.wireType < 8 := by
  cases v <;> simp [wireType]

end Value

/-- A value of the given type at the start of some bytes, and the bytes behind it. -/
def readValue : ℕ → Bytes → Option (Value × Bytes)
  | 0, b => (readVarint b).map fun r ↦ (.varint r.1, r.2)
  | 1, b =>
    if 8 ≤ b.length then
      some (.fixed64 (UInt64.ofNat (ofLittleEndian (b.take 8))), b.drop 8)
    else none
  | 2, b => (readVarint b).bind fun r ↦
    if r.1 ≤ r.2.length then some (.bytes (r.2.take r.1), r.2.drop r.1) else none
  | 5, b =>
    if 4 ≤ b.length then
      some (.fixed32 (UInt32.ofNat (ofLittleEndian (b.take 4))), b.drop 4)
    else none
  | _, _ => none

theorem readValue_encode (v : Value) (rest : Bytes) :
    readValue v.wireType (v.encode ++ rest) = some (v, rest) := by
  cases v with
  | varint n =>
    show (readVarint (varint n ++ rest)).map _ = _
    rw [readVarint_varint, Option.map_some]
  | fixed64 v =>
    have hlen : (littleEndian 8 v.toNat).length = 8 := length_littleEndian 8 v.toNat
    show readValue 1 (littleEndian 8 v.toNat ++ rest) = _
    rw [readValue, if_pos (by rw [List.length_append]; omega), List.take_left' hlen,
      List.drop_left' hlen, ofLittleEndian_littleEndian v.toNat_lt, UInt64.ofNat_toNat]
  | bytes b =>
    show (readVarint (varint b.length ++ b ++ rest)).bind _ = _
    rw [List.append_assoc, readVarint_varint, Option.bind_some,
      if_pos (by rw [List.length_append]; omega), List.take_left' rfl, List.drop_left' rfl]
  | fixed32 v =>
    have hlen : (littleEndian 4 v.toNat).length = 4 := length_littleEndian 4 v.toNat
    show readValue 5 (littleEndian 4 v.toNat ++ rest) = _
    rw [readValue, if_pos (by rw [List.length_append]; omega), List.take_left' hlen,
      List.drop_left' hlen, ofLittleEndian_littleEndian v.toNat_lt, UInt32.ofNat_toNat]

/-- The contents of a value and what is behind it stand in the bytes it was read from. -/
theorem readValue_length {kind : ℕ} {b rest : Bytes} {v : Value}
    (h : readValue kind b = some (v, rest)) : rest.length + v.size ≤ b.length := by
  unfold readValue at h
  split at h
  · obtain ⟨r, hr, hrest⟩ := Option.map_eq_some_iff.1 h
    cases hrest
    exact Nat.le_of_lt (readVarint_length (n := r.1) hr)
  · split at h <;> cases h
    exact (List.drop_sublist 8 b).length_le
  · obtain ⟨r, hr, hrest⟩ := Option.bind_eq_some_iff.1 h
    have hshort := @readVarint_length _ r.2 r.1 hr
    split at hrest <;> cases hrest
    rw [Value.size, Value.content, List.length_drop, List.length_take]
    omega
  · split at h <;> cases h
    exact (List.drop_sublist 4 b).length_le
  · cases h

/-- A field of a message. -/
structure Field where
  number : ℕ
  value : Value
  deriving DecidableEq, Repr

namespace Field

/-- The tag of a field. -/
def tag (f : Field) : ℕ :=
  8 * f.number + f.value.wireType

/-- A field in a message. -/
def encode (f : Field) : Bytes :=
  varint f.tag ++ f.value.encode

/-- How many bytes of a field stand in front of its contents. -/
def header (f : Field) : ℕ :=
  f.encode.length - f.value.size

end Field

/-- The field at the start of some bytes, and the bytes behind it. -/
def readField (b : Bytes) : Option (Field × Bytes) :=
  (readVarint b).bind fun r ↦ (readValue (r.1 % 8) r.2).map fun v ↦ (⟨r.1 / 8, v.1⟩, v.2)

theorem readField_encode (f : Field) (rest : Bytes) :
    readField (f.encode ++ rest) = some (f, rest) := by
  have hlt := f.value.wireType_lt
  have hmod : f.tag % 8 = f.value.wireType := by
    rw [Field.tag]
    omega
  have hdiv : f.tag / 8 = f.number := by
    rw [Field.tag]
    omega
  rw [readField, Field.encode, List.append_assoc, readVarint_varint, Option.bind_some, hmod, hdiv,
    readValue_encode, Option.map_some]

theorem readField_length {b rest : Bytes} {f : Field} (h : readField b = some (f, rest)) :
    rest.length + f.value.size < b.length := by
  obtain ⟨r, hr, h⟩ := Option.bind_eq_some_iff.1 h
  obtain ⟨v, hv, h⟩ := Option.map_eq_some_iff.1 h
  cases h
  have htag := @readVarint_length _ r.2 r.1 hr
  have hvalue := @readValue_length _ _ v.2 v.1 hv
  show v.2.length + v.1.size < b.length
  omega

/-- A field is its header and its contents. -/
theorem exists_field_encode_eq (f : Field) :
    ∃ lead, f.encode = lead ++ f.value.content ∧ lead.length = f.header := by
  obtain ⟨lead, hlead⟩ := f.value.exists_encode_eq
  refine ⟨varint f.tag ++ lead, ?_, ?_⟩
  · rw [Field.encode, hlead, List.append_assoc]
  · rw [Field.header, Field.encode, hlead, Value.size]
    simp only [List.length_append]
    omega

theorem header_add_size (f : Field) : f.header + f.value.size = f.encode.length := by
  obtain ⟨lead, hencode, hlead⟩ := exists_field_encode_eq f
  rw [hencode, List.length_append, hlead]
  rfl

/-! ### Messages -/

/-- A field and the place of its contents in the message. -/
structure Placed where
  field : Field
  offset : ℕ
  deriving DecidableEq, Repr

/-- The encoding of a message. -/
def encode (fs : List Field) : Bytes :=
  fs.flatMap Field.encode

/-- Where the fields of a message stand that starts at `offset`. -/
def layout : ℕ → List Field → List Placed
  | _, [] => []
  | offset, f :: fs => ⟨f, offset + f.header⟩ :: layout (offset + f.encode.length) fs

/-- The fields in the last `b.length` bytes of a message of the given size, and whether they are
read to the end. -/
def readFields (size : ℕ) : ℕ → Bytes → List Placed × Bool
  | _, [] => ([], true)
  | 0, _ => ([], false)
  | fuel + 1, b =>
    match readField b with
    | none => ([], false)
    | some (f, rest) =>
      let r := readFields size fuel rest
      (⟨f, size - rest.length - f.value.size⟩ :: r.1, r.2)

/-- The fields of a message, and whether it is read to its end. -/
def decode (b : Bytes) : List Placed × Bool :=
  readFields b.length b.length b

theorem encode_cons (f : Field) (fs : List Field) : encode (f :: fs) = f.encode ++ encode fs :=
  List.flatMap_cons

theorem encode_append (fs fs' : List Field) : encode (fs ++ fs') = encode fs ++ encode fs' :=
  List.flatMap_append

theorem layout_append (offset : ℕ) (fs fs' : List Field) :
    layout offset (fs ++ fs') = layout offset fs ++ layout (offset + (encode fs).length) fs' := by
  induction fs generalizing offset with
  | nil => rfl
  | cons f fs ih =>
    rw [List.cons_append, layout, layout, ih, encode_cons, List.length_append, List.cons_append,
      Nat.add_assoc]

/-- The last field ends where the message does. -/
theorem layout_concat (fs : List Field) (f : Field) :
    layout 0 (fs ++ [f]) =
      layout 0 fs ++ [⟨f, (encode (fs ++ [f])).length - f.value.size⟩] := by
  have hsum := header_add_size f
  have hlast : encode [f] = f.encode := List.append_nil _
  have hplace : 0 + (encode fs).length + f.header =
      (encode (fs ++ [f])).length - f.value.size := by
    rw [encode_append, List.length_append, hlast]
    omega
  rw [layout_append, ← hplace]
  rfl

theorem readFields_encode (fs : List Field) {size offset fuel : ℕ}
    (hsize : size = offset + (encode fs).length) (hfuel : (encode fs).length ≤ fuel) :
    readFields size fuel (encode fs) = (layout offset fs, true) := by
  induction fs generalizing offset fuel with
  | nil => cases fuel <;> rfl
  | cons f fs ih =>
    have hsum := header_add_size f
    have hread := readField_encode f (encode fs)
    have hlt := readField_length hread
    rw [encode_cons] at hsize hfuel ⊢
    rw [List.length_append] at hsize hfuel hlt
    cases fuel with
    | zero => omega
    | succ fuel =>
      cases hcons : f.encode ++ encode fs with
      | nil =>
        rw [← List.length_eq_zero_iff, List.length_append] at hcons
        omega
      | cons c cs =>
        rw [hcons] at hread
        have hplace : size - (encode fs).length - f.value.size = offset + f.header := by omega
        have hrest := @ih (offset + f.encode.length) fuel (by omega) (by omega)
        rw [readFields, hread, layout]
        · dsimp only
          rw [hrest, hplace]
        · exact List.cons_ne_nil c cs

/-- **A message reads back**, and every field is found where it was written. -/
theorem decode_encode (fs : List Field) : decode (encode fs) = (layout 0 fs, true) :=
  readFields_encode fs (Nat.zero_add _).symm (Nat.le_refl _)

/-- The contents of every field that is read stand in the message. -/
theorem le_of_mem_decode {b : Bytes} {x : Placed} (h : x ∈ (decode b).1) :
    x.offset + x.field.value.size ≤ b.length := by
  have hread : ∀ fuel (c : Bytes), c.length ≤ b.length → x ∈ (readFields b.length fuel c).1 →
      x.offset + x.field.value.size ≤ b.length := by
    intro fuel
    induction fuel with
    | zero =>
      intro c _ hx
      cases c <;> cases hx
    | succ fuel ih =>
      intro c hc hx
      cases c with
      | nil => cases hx
      | cons d ds =>
        rw [readFields] at hx
        split at hx
        · cases hx
        · next f rest hfield =>
          have hlt := readField_length hfield
          rcases List.mem_cons.1 hx with rfl | hx
          · show b.length - rest.length - f.value.size + f.value.size ≤ b.length
            omega
          · exact ih rest (by omega) hx
        · exact List.cons_ne_nil _ _
  exact hread b.length b (Nat.le_refl _) h

/-- There is a tag in front of the contents of every field that is read. -/
theorem offset_pos_of_mem_decode {b : Bytes} {x : Placed} (h : x ∈ (decode b).1) :
    0 < x.offset := by
  have hread : ∀ fuel (c : Bytes), c.length ≤ b.length → x ∈ (readFields b.length fuel c).1 →
      0 < x.offset := by
    intro fuel
    induction fuel with
    | zero =>
      intro c _ hx
      cases c <;> cases hx
    | succ fuel ih =>
      intro c hc hx
      cases c with
      | nil => cases hx
      | cons d ds =>
        rw [readFields] at hx
        split at hx
        · cases hx
        · next f rest hfield =>
          have hlt := readField_length hfield
          rcases List.mem_cons.1 hx with rfl | hx
          · show 0 < b.length - rest.length - f.value.size
            omega
          · exact ih rest (by omega) hx
        · exact List.cons_ne_nil _ _
  exact hread b.length b (Nat.le_refl _) h

/-- The fields of a layout are those of the message. -/
theorem map_field_layout (offset : ℕ) (fs : List Field) :
    (layout offset fs).map Placed.field = fs := by
  induction fs generalizing offset with
  | nil => rfl
  | cons f fs ih => rw [layout, List.map_cons, ih]

/-- The contents of a field stand at its place. -/
theorem exists_of_mem_layout {fs : List Field} {offset : ℕ} {x : Placed}
    (h : x ∈ layout offset fs) :
    ∃ pre post, encode fs = pre ++ x.field.value.content ++ post ∧
      x.offset = offset + pre.length := by
  induction fs generalizing offset with
  | nil => cases h
  | cons f fs ih =>
    rw [encode_cons]
    rcases List.mem_cons.1 h with rfl | h
    · obtain ⟨lead, hencode, hlead⟩ := exists_field_encode_eq f
      exact ⟨lead, encode fs, by rw [hencode], by rw [hlead]⟩
    · obtain ⟨pre, post, hfs, hoffset⟩ := ih h
      refine ⟨f.encode ++ pre, post, ?_, ?_⟩
      · rw [hfs]
        simp only [List.append_assoc]
      · rw [hoffset, List.length_append]
        omega

/-! ### How long fields are -/

section

variable {number : ℕ} (hnumber : number < 16)

include hnumber

theorem length_tag (v : Value) : (varint (Field.tag ⟨number, v⟩)).length = 1 := by
  have hlt := v.wireType_lt
  refine length_varint_of_lt ?_
  show 8 * number + v.wireType < 128
  omega

theorem length_encode_varint {n : ℕ} (hn : n < 128) :
    (Field.encode ⟨number, .varint n⟩).length = 2 := by
  rw [Field.encode, List.length_append, length_tag hnumber]
  exact congrArg (1 + ·) (length_varint_of_lt hn)

theorem length_encode_fixed64 (v : UInt64) :
    (Field.encode ⟨number, .fixed64 v⟩).length = 9 := by
  rw [Field.encode, List.length_append, length_tag hnumber]
  exact congrArg (1 + ·) (length_littleEndian 8 v.toNat)

theorem length_encode_fixed32 (v : UInt32) :
    (Field.encode ⟨number, .fixed32 v⟩).length = 5 := by
  rw [Field.encode, List.length_append, length_tag hnumber]
  exact congrArg (1 + ·) (length_littleEndian 4 v.toNat)

theorem length_encode_bytes (b : Bytes) :
    (Field.encode ⟨number, .bytes b⟩).length = 1 + ((varint b.length).length + b.length) := by
  rw [Field.encode, List.length_append, length_tag hnumber]
  exact congrArg (1 + ·) List.length_append

end

/-! ### Reading fields by number -/

namespace Value

/-- A number that is encoded as a varint. -/
def varint? : Value → Option ℕ
  | .varint n => some n
  | _ => none

/-- A number of eight bytes. -/
def fixed64? : Value → Option UInt64
  | .fixed64 v => some v
  | _ => none

/-- Bytes, or a message. -/
def bytes? : Value → Option Bytes
  | .bytes b => some b
  | _ => none

/-- A number of four bytes. -/
def fixed32? : Value → Option UInt32
  | .fixed32 v => some v
  | _ => none

end Value

/-- The fields of a message that can be read to its end. -/
def fields? (b : Bytes) : Option (List Field) :=
  if (decode b).2 then some ((decode b).1.map Placed.field) else none

theorem fields?_encode (fs : List Field) : fields? (encode fs) = some fs := by
  rw [fields?, decode_encode, if_pos rfl, map_field_layout]

/-- The value of the last field with a number. -/
def lastOf {α : Type} (number : ℕ) (value : Value → Option α) (fs : List Field) : Option α :=
  (fs.filterMap fun f ↦ if f.number = number then value f.value else none).getLast?

/-- The values of all fields with a number. -/
def allOf {α : Type} (number : ℕ) (value : Value → Option α) (fs : List Field) : List α :=
  fs.filterMap fun f ↦ if f.number = number then value f.value else none

/-! ### Messages as decodings -/

/-- A message as a decoding: what `f` makes of its fields. It is read to its end if what is nested
in the fields is well formed as well, and fields with the numbers and types in `required` are
there. -/
def decoding {φ : Type} (f : Placed → List φ) (wellFormed : Placed → Bool)
    (required : List (ℕ × ℕ)) (b : Bytes) : Decoding φ where
  fields := (decode b).1.flatMap f
  complete := (decode b).2 && (decode b).1.all wellFormed &&
    required.all fun r ↦ (decode b).1.any fun x ↦ (x.field.number, x.field.value.wireType) = r

section

variable {φ : Type} (f : Placed → List φ) (wellFormed : Placed → Bool) (required : List (ℕ × ℕ))

theorem decoding_encode (fs : List Field) :
    decoding f wellFormed required (encode fs) =
      ⟨(layout 0 fs).flatMap f, (layout 0 fs).all wellFormed &&
        required.all fun r ↦ (layout 0 fs).any fun x ↦
          (x.field.number, x.field.value.wireType) = r⟩ := by
  rw [decoding, decode_encode, Bool.true_and]

end

/-- A field that is required is there. -/
theorem exists_mem_of_decoding {φ : Type} {f : Placed → List φ} {wellFormed : Placed → Bool}
    {required : List (ℕ × ℕ)} {b : Bytes} {r : ℕ × ℕ}
    (h : (decoding f wellFormed required b).complete = true) (hr : r ∈ required) :
    ∃ x ∈ (decode b).1, (x.field.number, x.field.value.wireType) = r := by
  have hall := List.all_eq_true.1 (Bool.and_eq_true_iff.1 h).2 r hr
  obtain ⟨x, hx, hkind⟩ := List.any_eq_true.1 hall
  exact ⟨x, hx, of_decide_eq_true hkind⟩

end Wire
