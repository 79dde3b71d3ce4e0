import Pvugc.Algebra.Bytes

namespace Pvugc.Encoding
open Pvugc.Algebra

/-- A computation that takes bytes from the front of a stream; `none` is a failed read. -/
abbrev StreamReader := StateT (List UInt8) Option

section Readers

variable {A B : Type}

/-- From every stream that starts with the bytes, the reader takes them and returns the value. -/
def Reads (reader : StreamReader A) (bytes : List UInt8) (value : A) : Prop :=
  ∀ rest, reader.run (bytes ++ rest) = some (value, rest)

/-- A successful read does not look behind the bytes that it takes. -/
def Sequential (reader : StreamReader A) : Prop :=
  ∀ stream value rest, reader.run stream = some (value, rest) →
    ∀ more, reader.run (stream ++ more) = some (value, rest ++ more)

theorem reader_bind_run (reader : StreamReader A) (next : A → StreamReader B) (stream : List UInt8) :
    (reader >>= next).run stream = (reader.run stream).bind fun found => (next found.1).run found.2 := rfl

namespace Reads

variable {reader : StreamReader A} {next : A → StreamReader B} {bytes bytes' : List UInt8} {value : A} {value' : B}

theorem pure (value : A) : Reads (Pure.pure value) [] value := fun _ => rfl

theorem bind (first : Reads reader bytes value) (second : Reads (next value) bytes' value') :
    Reads (reader >>= next) (bytes ++ bytes') value' := by
  intro rest
  rw [reader_bind_run, List.append_assoc, first, Option.bind_some, second]

theorem map (f : A → B) (read : Reads reader bytes value) : Reads (f <$> reader) bytes (f value) := by
  intro rest
  rw [StateT.run_map, read]
  rfl

/-- The last step of a reader that returns what it has read. -/
theorem last {f : A → B} (read : Reads reader bytes value) :
    Reads (reader >>= fun value => Pure.pure (f value)) bytes (f value) := by
  intro rest
  rw [reader_bind_run, read]
  rfl

/-- A value computed without the stream. -/
theorem lift {found : Option A} (present : found = some value) : Reads (StateT.lift found) [] value := by
  intro rest
  subst present
  rfl

/-- No reader of a sequential format takes a truncated code for a value. -/
theorem truncated (read : Reads reader bytes value) (sequential : Sequential reader) {front back : List UInt8}
    (split : bytes = front ++ back) (proper : back ≠ []) : reader.run front = none := by
  cases taken : reader.run front with
  | none => rfl
  | some found =>
      have whole := sequential front found.1 found.2 taken back
      have exact' := read []
      rw [List.append_nil, split, whole, Option.some.injEq, Prod.mk.injEq, List.append_eq_nil_iff] at exact'
      exact absurd exact'.2.2 proper

end Reads

namespace Sequential

variable {reader : StreamReader A} {next : A → StreamReader B}

theorem pure (value : A) : Sequential (Pure.pure value) := by
  intro stream found rest taken more
  cases taken
  rfl

theorem bind (first : Sequential reader) (second : ∀ value, Sequential (next value)) :
    Sequential (reader >>= next) := by
  intro stream found rest taken more
  rw [reader_bind_run, Option.bind_eq_some_iff] at taken
  obtain ⟨middle, front, back⟩ := taken
  rw [reader_bind_run, first _ _ _ front more, Option.bind_some]
  exact second _ _ _ _ back more

theorem map (f : A → B) (sequential : Sequential reader) : Sequential (f <$> reader) :=
  sequential.bind fun value => Sequential.pure (f value)

theorem lift (found : Option A) : Sequential (StateT.lift found : StreamReader A) := by
  intro stream value rest taken more
  cases found with
  | none => cases taken
  | some value =>
      cases taken
      rfl

end Sequential

end Readers

section Bytes

/-- This is `read_exact`. -/
def readExact (count : ℕ) : StreamReader (List UInt8) := fun stream =>
  if stream.length < count then none else some (stream.take count, stream.drop count)

theorem readExact_reads (bytes : List UInt8) : Reads (readExact bytes.length) bytes bytes := by
  intro rest
  change (if (bytes ++ rest).length < bytes.length then none else _) = _
  rw [if_neg (by simp), List.take_left, List.drop_left]

theorem readExact_sequential (count : ℕ) : Sequential (readExact count) := by
  intro stream value rest taken more
  change (if stream.length < count then none else some (stream.take count, stream.drop count)) = _ at taken
  change (if (stream ++ more).length < count then none
    else some ((stream ++ more).take count, (stream ++ more).drop count)) = _
  split at taken
  case isTrue => cases taken
  case isFalse long =>
    cases taken
    have inside : count ≤ stream.length := Nat.le_of_not_lt long
    rw [if_neg (by rw [List.length_append]; omega), List.take_append_of_le_length inside,
      List.drop_append_of_le_length inside]

/-- A number in little-endian bytes. -/
def readLe (width : ℕ) : StreamReader ℕ := leValue <$> readExact width

theorem readLe_reads {width n : ℕ} (fits : n < 256 ^ width) : Reads (readLe width) (toLeBytes width n) n := by
  have read := (readExact_reads (toLeBytes width n)).map leValue
  rwa [toLeBytes_length, leValue_toLeBytes fits] at read

theorem readLe_sequential (width : ℕ) : Sequential (readLe width) := (readExact_sequential width).map leValue

end Bytes

section Lists

variable {A : Type}

def readMany (reader : StreamReader A) : ℕ → StreamReader (List A)
  | 0 => return []
  | count + 1 => do
      let value ← reader
      let values ← readMany reader count
      return value :: values

theorem readMany_reads {reader : StreamReader A} {write : A → List UInt8} {values : List A}
    (read : ∀ value ∈ values, Reads reader (write value) value) :
    Reads (readMany reader values.length) (values.flatMap write) values := by
  induction values with
  | nil => exact Reads.pure []
  | cons value values inductionHypothesis =>
      have others := inductionHypothesis fun other member => read other (List.mem_cons_of_mem _ member)
      rw [List.flatMap_cons, ← List.append_nil (values.flatMap write)]
      exact (read value List.mem_cons_self).bind (others.bind (Reads.pure _))

theorem readMany_sequential {reader : StreamReader A} (sequential : Sequential reader) (count : ℕ) :
    Sequential (readMany reader count) := by
  induction count with
  | zero => exact Sequential.pure []
  | succ count inductionHypothesis =>
      exact sequential.bind fun value => inductionHypothesis.bind fun values => Sequential.pure (value :: values)

/-- A list behind its number of entries, which is written modulo the width. -/
def writeCounted (width : ℕ) (write : A → List UInt8) (values : List A) : List UInt8 :=
  toLeBytes width values.length ++ values.flatMap write

def readCounted (width : ℕ) (reader : StreamReader A) : StreamReader (List A) := readLe width >>= readMany reader

theorem readCounted_reads {width : ℕ} {reader : StreamReader A} {write : A → List UInt8} {values : List A}
    (fits : values.length < 256 ^ width) (read : ∀ value ∈ values, Reads reader (write value) value) :
    Reads (readCounted width reader) (writeCounted width write values) values :=
  (readLe_reads fits).bind (readMany_reads read)

theorem readCounted_sequential (width : ℕ) {reader : StreamReader A} (sequential : Sequential reader) :
    Sequential (readCounted width reader) :=
  (readLe_sequential width).bind (readMany_sequential sequential)

/-- A byte string behind its length. -/
def writeBlob (width : ℕ) (bytes : List UInt8) : List UInt8 := toLeBytes width bytes.length ++ bytes

def readBlob (width : ℕ) : StreamReader (List UInt8) := readLe width >>= readExact

theorem readBlob_reads {width : ℕ} {bytes : List UInt8} (fits : bytes.length < 256 ^ width) :
    Reads (readBlob width) (writeBlob width bytes) bytes :=
  (readLe_reads fits).bind (readExact_reads bytes)

theorem readBlob_sequential (width : ℕ) : Sequential (readBlob width) :=
  (readLe_sequential width).bind readExact_sequential

end Lists

/-- A code that can be read from the front of a stream. -/
structure StreamCode (A : Type) where
  serialize : A → List UInt8
  deserialize : StreamReader A
  reads : ∀ value, Reads deserialize (serialize value) value
  sequential : Sequential deserialize

end Pvugc.Encoding
