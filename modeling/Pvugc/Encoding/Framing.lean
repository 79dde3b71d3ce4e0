import Pvugc.Algebra.Bytes

namespace Pvugc.Encoding
open Pvugc.Algebra

/-- A fixed-width code for the lengths of byte strings. -/
structure LengthCode where
  width : ℕ
  encode : ℕ → List UInt8
  decode : List UInt8 → ℕ
  encode_length : ∀ n, (encode n).length = width
  decode_encode : ∀ n < 256 ^ width, decode (encode n) = n
  encode_decode : ∀ header, header.length = width → encode (decode header) = header
  decode_lt : ∀ header, header.length = width → decode header < 256 ^ width

def LengthCode.littleEndian (width : ℕ) : LengthCode where
  width := width
  encode := toLeBytes width
  decode := leValue
  encode_length := toLeBytes_length width
  decode_encode _ := leValue_toLeBytes
  encode_decode header length := by rw [← length, toLeBytes_leValue]
  decode_lt header length := by rw [← length]; exact leValue_lt header

def LengthCode.bigEndian (width : ℕ) : LengthCode where
  width := width
  encode := toBeBytes width
  decode := beValue
  encode_length := toBeBytes_length width
  decode_encode _ := beValue_toBeBytes
  encode_decode header length := by rw [← length, toBeBytes_beValue]
  decode_lt header length := by rw [← length]; exact beValue_lt header

/-- The header of a string decodes to a length exactly where the string starts with its code. -/
theorem LengthCode.decode_take_eq_iff (code : LengthCode) {bytes : List UInt8} {n : ℕ}
    (inside : code.width ≤ bytes.length) :
    code.decode (bytes.take code.width) = n ↔ n < 256 ^ code.width ∧ code.encode n <+: bytes := by
  have length : (bytes.take code.width).length = code.width := by
    rw [List.length_take, Nat.min_eq_left inside]
  constructor
  · intro decoded
    rw [← decoded, code.encode_decode _ length]
    exact ⟨code.decode_lt _ length, List.take_prefix _ _⟩
  · rintro ⟨small, starts⟩
    rw [← code.encode_length n, ← List.prefix_iff_eq_take.mp starts, code.decode_encode n small]

/-- A field of a frame has a known width or its length in front. -/
inductive FieldLayout where
  | fixed (label : String) (width : ℕ)
  | prefixed (label : String)

variable (code : LengthCode)

def FieldLayout.Fits : FieldLayout → List UInt8 → Prop
  | fixed _ width, value => value.length = width
  | prefixed _, value => value.length < 256 ^ code.width

def FieldLayout.encode : FieldLayout → List UInt8 → List UInt8
  | fixed _ _, value => value
  | prefixed _, value => code.encode value.length ++ value

/-- The frame of the values of consecutive fields. -/
def encodeFields : List FieldLayout → List (List UInt8) → List UInt8
  | layout :: layouts, value :: values => layout.encode code value ++ encodeFields layouts values
  | _, _ => []

section Read

/-- What a reader reports; the last one stands for an access out of bounds. -/
structure ReadErrors (E : Type) where
  tooShort : String → E
  overflow : String → E
  outOfBounds : E

/-- A computation that moves a cursor over a byte string. -/
abbrev Reader (E : Type) := StateT ℕ (Except E)

variable {E : Type} (errors : ReadErrors E) (bytes : List UInt8)

/-- A slice of the byte string, out of bounds where the string is shorter. -/
def slice (start stop : ℕ) : Except E (List UInt8) :=
  if start ≤ stop ∧ stop ≤ bytes.length then .ok ((bytes.take stop).drop start) else .error errors.outOfBounds

theorem slice_eq_ok {start len : ℕ} (inside : start + len ≤ bytes.length) :
    slice errors bytes start (start + len) = .ok ((bytes.drop start).take len) := by
  rw [slice, if_pos ⟨Nat.le_add_right _ _, inside⟩, List.take_drop]

def readSlice (len : ℕ) (label : String) : Reader E (List UInt8) := do
  let cursor ← get
  if cursor + len > bytes.length then throw (errors.tooShort label)
  let taken ← slice errors bytes cursor (cursor + len)
  set (cursor + len)
  return taken

def readLen (label : String) : Reader E ℕ := do
  let header ← readSlice errors bytes code.width label
  let len := code.decode header
  let cursor ← get
  if cursor + len > bytes.length then throw (errors.overflow label)
  return len

/-- A field with its length in front is read in two steps. -/
def FieldLayout.read : FieldLayout → Reader E (List UInt8)
  | fixed label width => readSlice errors bytes width label
  | prefixed label => do
      let len ← readLen code errors bytes label
      readSlice errors bytes len (label ++ "_bytes")

def readFields : List FieldLayout → Reader E (List (List UInt8))
  | [] => return []
  | layout :: layouts => do
      let value ← layout.read code errors bytes
      let values ← readFields layouts
      return value :: values

end Read

section Encode

variable {code}

/-- Frames of fitting values determine the values, whatever follows them. -/
theorem encodeFields_inj {layouts : List FieldLayout} {values values' : List (List UInt8)}
    {rest rest' : List UInt8} (fits : List.Forall₂ (FieldLayout.Fits code) layouts values)
    (fits' : List.Forall₂ (FieldLayout.Fits code) layouts values')
    (same : encodeFields code layouts values ++ rest = encodeFields code layouts values' ++ rest') :
    values = values' ∧ rest = rest' := by
  induction fits generalizing values' with
  | nil =>
      cases fits'
      exact ⟨rfl, same⟩
  | @cons layout value layouts values first _ inductionHypothesis =>
      cases fits' with
      | @cons _ value' _ values' first' others' =>
        rw [encodeFields, encodeFields, List.append_assoc, List.append_assoc] at same
        cases layout with
        | fixed label width =>
            obtain ⟨rfl, tails⟩ := List.append_inj same (first.trans first'.symm)
            obtain ⟨rfl, ends⟩ := inductionHypothesis others' tails
            exact ⟨rfl, ends⟩
        | prefixed label =>
            rw [FieldLayout.encode, FieldLayout.encode, List.append_assoc, List.append_assoc] at same
            obtain ⟨headers, contents⟩ := List.append_inj same
              ((code.encode_length _).trans (code.encode_length _).symm)
            have lengths := congrArg code.decode headers
            rw [code.decode_encode _ first, code.decode_encode _ first'] at lengths
            obtain ⟨rfl, tails⟩ := List.append_inj contents lengths
            obtain ⟨rfl, ends⟩ := inductionHypothesis others' tails
            exact ⟨rfl, ends⟩

end Encode

section Exact

variable {E : Type} {errors : ReadErrors E} {bytes : List UInt8}

@[simp] theorem ok_bind {A B : Type} (a : A) (f : A → Except E B) : (Except.ok a >>= f) = f a := rfl

@[simp] theorem error_bind {A B : Type} (error : E) (f : A → Except E B) :
    (Except.error error >>= f) = .error error := rfl

theorem readSlice_run (len : ℕ) (label : String) (cursor : ℕ) :
    (readSlice errors bytes len label).run cursor =
      if cursor + len ≤ bytes.length then .ok ((bytes.drop cursor).take len, cursor + len)
      else .error (errors.tooShort label) := by
  by_cases inside : cursor + len ≤ bytes.length
  · rw [if_pos inside]
    simp [readSlice, slice_eq_ok errors bytes inside, Nat.not_lt.mpr inside]
  · rw [if_neg inside]
    simp [readSlice, Nat.lt_of_not_le inside]
    rfl

theorem readLen_run (label : String) (cursor : ℕ) : (readLen code errors bytes label).run cursor =
    if cursor + code.width ≤ bytes.length then
      if cursor + code.width + code.decode ((bytes.drop cursor).take code.width) ≤ bytes.length then
        .ok (code.decode ((bytes.drop cursor).take code.width), cursor + code.width)
      else .error (errors.overflow label)
    else .error (errors.tooShort label) := by
  simp only [readLen, StateT.run_bind, readSlice_run]
  split
  case isFalse => rfl
  case isTrue =>
    split
    case isTrue inside =>
      simp [Nat.not_lt.mpr inside]
      rfl
    case isFalse outside =>
      simp [Nat.lt_of_not_le outside]
      rfl

theorem bind_eq_ok_iff {A B : Type} {x : Reader E A} {f : A → Reader E B} {cursor next : ℕ} {b : B} :
    (x >>= f).run cursor = .ok (b, next) ↔
      ∃ a mid, x.run cursor = .ok (a, mid) ∧ (f a).run mid = .ok (b, next) := by
  rw [StateT.run_bind]
  cases x.run cursor with
  | error error => simp
  | ok pair => simp [Prod.ext_iff, eq_comm]

theorem append_prefix_iff {A : Type} {first second whole : List A} :
    first ++ second <+: whole ↔ first <+: whole ∧ second <+: whole.drop first.length := by
  constructor
  · rintro ⟨rest, rfl⟩
    rw [List.append_assoc]
    exact ⟨List.prefix_append _ _, by rw [List.drop_left]; exact List.prefix_append _ _⟩
  · rintro ⟨⟨tail, rfl⟩, later⟩
    rw [List.drop_left] at later
    exact (List.prefix_append_right_inj first).mpr later

/-- A slice is read exactly where it starts at the cursor. -/
theorem readSlice_eq_ok_iff {len : ℕ} {label : String} {value : List UInt8} {cursor next : ℕ}
    (inside : cursor ≤ bytes.length) :
    (readSlice errors bytes len label).run cursor = .ok (value, next) ↔
      value.length = len ∧ value <+: bytes.drop cursor ∧ next = cursor + len := by
  rw [readSlice_run, List.prefix_iff_eq_take]
  constructor
  · intro run
    split at run
    case isFalse => cases run
    case isTrue fits =>
      cases run
      have length : ((bytes.drop cursor).take len).length = len := by
        rw [List.length_take, List.length_drop]
        omega
      exact ⟨length, by rw [length], rfl⟩
  · rintro ⟨rfl, taken, rfl⟩
    have fits : cursor + value.length ≤ bytes.length := by
      have bound := congrArg List.length taken
      rw [List.length_take, List.length_drop] at bound
      omega
    rw [if_pos fits, ← taken]

/-- A length is read exactly where its header starts at the cursor and the contents fit. -/
theorem readLen_eq_ok_iff {label : String} {len cursor next : ℕ} (inside : cursor ≤ bytes.length) :
    (readLen code errors bytes label).run cursor = .ok (len, next) ↔
      len < 256 ^ code.width ∧ code.encode len <+: bytes.drop cursor ∧ next = cursor + code.width ∧
        next + len ≤ bytes.length := by
  have decoded (fits : cursor + code.width ≤ bytes.length) :
      code.decode ((bytes.drop cursor).take code.width) = len ↔
        len < 256 ^ code.width ∧ code.encode len <+: bytes.drop cursor :=
    code.decode_take_eq_iff (by rw [List.length_drop]; omega)
  rw [readLen_run]
  constructor
  · intro run
    split at run
    case isFalse => cases run
    case isTrue fits =>
      split at run
      case isFalse => cases run
      case isTrue contents =>
        cases run
        obtain ⟨small, starts⟩ := (decoded fits).mp rfl
        exact ⟨small, starts, rfl, contents⟩
  · rintro ⟨small, starts, rfl, contents⟩
    have fits : cursor + code.width ≤ bytes.length := by omega
    rw [if_pos fits, (decoded fits).mpr ⟨small, starts⟩, if_pos contents]

variable {code}

/-- A field is read exactly where its encoding starts at the cursor. -/
theorem FieldLayout.read_eq_ok_iff {layout : FieldLayout} {value : List UInt8} {cursor next : ℕ}
    (inside : cursor ≤ bytes.length) :
    (layout.read code errors bytes).run cursor = .ok (value, next) ↔
      layout.Fits code value ∧ layout.encode code value <+: bytes.drop cursor ∧
        next = cursor + (layout.encode code value).length := by
  cases layout with
  | fixed label width =>
      rw [read, readSlice_eq_ok_iff inside, Fits, encode]
      constructor
      · rintro ⟨rfl, starts, rfl⟩
        exact ⟨rfl, starts, rfl⟩
      · rintro ⟨rfl, starts, rfl⟩
        exact ⟨rfl, starts, rfl⟩
  | prefixed label =>
      rw [read, bind_eq_ok_iff, Fits, encode, append_prefix_iff, code.encode_length, List.drop_drop,
        List.length_append, code.encode_length, ← Nat.add_assoc]
      constructor
      · rintro ⟨len, mid, header, contents⟩
        obtain ⟨small, starts, rfl, bound⟩ := (readLen_eq_ok_iff code inside).mp header
        obtain ⟨rfl, follows, rfl⟩ := (readSlice_eq_ok_iff (by omega)).mp contents
        exact ⟨small, ⟨starts, follows⟩, rfl⟩
      · rintro ⟨small, ⟨starts, follows⟩, rfl⟩
        have header : cursor + code.width ≤ bytes.length := by
          have bound := starts.length_le
          rw [code.encode_length, List.length_drop] at bound
          omega
        have contents := follows.length_le
        rw [List.length_drop] at contents
        exact ⟨value.length, cursor + code.width,
          (readLen_eq_ok_iff code inside).mpr ⟨small, starts, rfl, by omega⟩,
          (readSlice_eq_ok_iff header).mpr ⟨rfl, follows, rfl⟩⟩

/-- Consecutive fields are read exactly where their frame starts at the cursor. -/
theorem readFields_eq_ok_iff {layouts : List FieldLayout} {values : List (List UInt8)} {cursor next : ℕ}
    (inside : cursor ≤ bytes.length) :
    (readFields code errors bytes layouts).run cursor = .ok (values, next) ↔
      List.Forall₂ (FieldLayout.Fits code) layouts values ∧
        encodeFields code layouts values <+: bytes.drop cursor ∧
        next = cursor + (encodeFields code layouts values).length := by
  induction layouts generalizing values cursor next with
  | nil =>
      rw [readFields, List.forall₂_nil_left_iff]
      constructor
      · intro run
        cases run
        exact ⟨rfl, List.nil_prefix, rfl⟩
      · rintro ⟨rfl, -, rfl⟩
        rfl
  | cons layout layouts inductionHypothesis =>
      have reach {value : List UInt8} (starts : layout.encode code value <+: bytes.drop cursor) :
          cursor + (layout.encode code value).length ≤ bytes.length := by
        have bound := starts.length_le
        rw [List.length_drop] at bound
        omega
      simp only [readFields, bind_eq_ok_iff]
      constructor
      · rintro ⟨value, mid, first, others, last, rest, whole⟩
        cases whole
        obtain ⟨fits, starts, rfl⟩ := (FieldLayout.read_eq_ok_iff inside).mp first
        obtain ⟨restFit, follows, rfl⟩ := (inductionHypothesis (reach starts)).mp rest
        rw [encodeFields, append_prefix_iff, List.drop_drop, List.length_append, ← Nat.add_assoc]
        exact ⟨.cons fits restFit, ⟨starts, follows⟩, rfl⟩
      · rintro ⟨fits, frame, rfl⟩
        cases fits with
        | @cons _ value _ values fits restFit =>
          rw [encodeFields, append_prefix_iff, List.drop_drop] at frame
          obtain ⟨starts, follows⟩ := frame
          have rest := (inductionHypothesis (reach starts)).mpr ⟨restFit, follows, rfl⟩
          refine ⟨value, _, (FieldLayout.read_eq_ok_iff inside).mpr ⟨fits, starts, rfl⟩, values, _, rest, ?_⟩
          rw [encodeFields, List.length_append, ← Nat.add_assoc]
          rfl

theorem bind_ne_error {A B : Type} {error : E} {x : Reader E A} {f : A → Reader E B}
    (first : ∀ cursor, x.run cursor ≠ .error error) (later : ∀ a cursor, (f a).run cursor ≠ .error error)
    (cursor : ℕ) : (x >>= f).run cursor ≠ .error error := by
  rw [StateT.run_bind]
  cases run : x.run cursor with
  | error other =>
      intro same
      cases same
      exact first cursor run
  | ok pair => exact later pair.1 pair.2

theorem readSlice_ne_outOfBounds (tooShort : ∀ label, errors.tooShort label ≠ errors.outOfBounds) (len : ℕ)
    (label : String) (cursor : ℕ) :
    (readSlice errors bytes len label).run cursor ≠ .error errors.outOfBounds := by
  rw [readSlice_run]
  split
  · simp
  · intro same
    exact tooShort label (Except.error.inj same)

/-- The readers report no access out of bounds. -/
theorem readFields_ne_outOfBounds (tooShort : ∀ label, errors.tooShort label ≠ errors.outOfBounds)
    (overflow : ∀ label, errors.overflow label ≠ errors.outOfBounds) (layouts : List FieldLayout)
    (cursor : ℕ) : (readFields code errors bytes layouts).run cursor ≠ .error errors.outOfBounds := by
  have lengths (label : String) (cursor : ℕ) :
      (readLen code errors bytes label).run cursor ≠ .error errors.outOfBounds := by
    rw [readLen_run]
    split
    · split
      · simp
      · intro same
        exact overflow label (Except.error.inj same)
    · intro same
      exact tooShort label (Except.error.inj same)
  have fields (layout : FieldLayout) (cursor : ℕ) :
      (layout.read code errors bytes).run cursor ≠ .error errors.outOfBounds := by
    cases layout with
    | fixed label width => exact readSlice_ne_outOfBounds tooShort width label cursor
    | prefixed label =>
        exact bind_ne_error (lengths label)
          (fun len => readSlice_ne_outOfBounds tooShort len (label ++ "_bytes")) cursor
  induction layouts generalizing cursor with
  | nil =>
      intro same
      cases same
  | cons layout layouts inductionHypothesis =>
      refine bind_ne_error (fields layout) (fun value => bind_ne_error inductionHypothesis ?_) cursor
      intro values cursor same
      cases same

end Exact

end Pvugc.Encoding
