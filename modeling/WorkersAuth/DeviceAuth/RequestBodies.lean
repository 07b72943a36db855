import WorkersAuth.Encodings.JsonTexts
import WorkersAuth.Encodings.TextDecoding

/-! `readJson`: a body is read chunk by chunk, up to a limit, and put together again. -/

namespace WorkersAuth.DeviceAuth

open Encodings

/-- `MAX_BODY_BYTES`. -/
def maxBodyBytes : ℕ := 4096

/-- What `readJson` answers; a body that is no JSON object is null. -/
inductive RequestBody where
  | tooLarge
  | body (fields : Option (List (Utf16 × JsonValue)))

-----------------------------------------------------------------------------------------
-- Reading the stream
-----------------------------------------------------------------------------------------

/-- What the loop holds between two reads: the chunks so far and the number of their bytes. -/
structure Reading where
  chunks : List (List UInt8) := []
  total : ℕ := 0

/-- A chunk is counted and kept, or reading ends above the limit. -/
def Reading.push (reading : Reading) (value : List UInt8) : Option Reading :=
  let total := reading.total + value.length
  if total > maxBodyBytes then none else some { chunks := reading.chunks ++ [value], total }

/-- The loop over the chunks of a stream; nothing when it ends above the limit. -/
def Reading.readAll (reading : Reading) : List (List UInt8) → Option Reading
  | [] => some reading
  | value :: rest => (reading.push value).bind (fun reading => reading.readAll rest)

/-- `bytes.set(chunk, offset)`, which throws when the chunk does not fit. -/
def setAt (bytes chunk : List UInt8) (offset : ℕ) : Option (List UInt8) :=
  if offset + chunk.length ≤ bytes.length then
    some (bytes.take offset ++ chunk ++ bytes.drop (offset + chunk.length))
  else none

/-- The chunks are set one after the other, each at the end of the one before. -/
def setAll (bytes : List UInt8) (offset : ℕ) : List (List UInt8) → Option (List UInt8)
  | [] => some bytes
  | chunk :: rest =>
      (setAt bytes chunk offset).bind (fun bytes => setAll bytes (offset + chunk.length) rest)

/-- `new Uint8Array(total)`, filled with the chunks. -/
def Reading.assemble (reading : Reading) : Option (List UInt8) :=
  setAll (List.replicate reading.total 0) 0 reading.chunks

/-- The fields of an object; nothing for other values. -/
def fieldsOf : JsonValue → Option (List (Utf16 × JsonValue))
  | .object fields => some fields
  | _ => none

/-- The JSON object that some bytes encode; nothing when they encode no JSON or no object. -/
def jsonObject (bytes : List UInt8) : Option (List (Utf16 × JsonValue)) :=
  (jsonParse (textDecode bytes)).bind fieldsOf

/-- `Number(c.req.header('content-length'))`, which is no number without the header. -/
def declaredLength (contentLength : Option Utf16) : JsNumber :=
  (contentLength.map toNumber).getD .nan

/-- `Number.isFinite(declared) && declared > MAX_BODY_BYTES`. -/
def declaresTooLarge (contentLength : Option Utf16) : Bool :=
  match declaredLength contentLength with
  | .finite declared => maxBodyBytes < declared
  | .infinity _ | .nan => false

/-- `readJson`: the header first, then the stream of a body; nothing when it throws. -/
def readJson (contentLength : Option Utf16) (stream : Option (List (List UInt8))) : Option RequestBody :=
  if declaresTooLarge contentLength then some .tooLarge
  else
    match stream with
    | none => some (.body none)
    | some chunks =>
        match Reading.readAll {} chunks with
        | none => some .tooLarge
        | some reading => reading.assemble.map (fun bytes => .body (jsonObject bytes))

-----------------------------------------------------------------------------------------
-- The loop
-----------------------------------------------------------------------------------------

variable {reading : Reading} {chunks : List (List UInt8)}

/-- The loop counts the bytes of all chunks and keeps the chunks when they are within the limit, by
induction on them.
-/
theorem Reading.readAll_eq (within : reading.total ≤ maxBodyBytes) (chunks : List (List UInt8))
    : reading.readAll chunks
      = if maxBodyBytes < reading.total + chunks.flatten.length then none
        else some {
          chunks := reading.chunks ++ chunks
          total := reading.total + chunks.flatten.length } := by
  induction chunks generalizing reading with
  | nil => simp [Reading.readAll, within]
  | cons value rest ih =>
      rw [Reading.readAll, Reading.push, List.flatten_cons, List.length_append, ← add_assoc]
      by_cases large : maxBodyBytes < reading.total + value.length
      · rw [if_pos large, if_pos (by omega)]
        rfl
      · rw [if_neg large, Option.bind_some, ih (by simpa using large), List.append_assoc]
        rfl

/-- Reading from the beginning keeps every chunk, unless there are too many bytes. -/
theorem Reading.readAll_start (chunks : List (List UInt8))
    : Reading.readAll {} chunks
      = if maxBodyBytes < chunks.flatten.length then none
        else some { chunks, total := chunks.flatten.length } := by
  have within : ({} : Reading).total ≤ maxBodyBytes := Nat.zero_le _
  simpa using Reading.readAll_eq within chunks

-----------------------------------------------------------------------------------------
-- Putting the chunks together
-----------------------------------------------------------------------------------------

/-- Chunks that fill the rest of an array follow what is before them, by induction on the chunks. -/
theorem setAll_eq {front back : List UInt8} (fills : back.length = chunks.flatten.length)
    : setAll (front ++ back) front.length chunks = some (front ++ chunks.flatten) := by
  induction chunks generalizing front back with
  | nil =>
      obtain rfl := List.length_eq_zero_iff.mp fills
      rfl
  | cons chunk rest ih =>
      rw [List.flatten_cons, List.length_append] at fills
      have fits : setAt (front ++ back) chunk front.length
          = some (front ++ chunk ++ back.drop chunk.length) := by
        rw [setAt, if_pos (by rw [List.length_append]; omega), List.take_left, List.drop_append,
          List.drop_eq_nil_of_le (by omega), List.nil_append, Nat.add_sub_cancel_left]
      rw [setAll, fits, Option.bind_some, ← List.length_append, ih (by rw [List.length_drop]; omega),
        List.flatten_cons, List.append_assoc]

/-- The array holds the bytes of the chunks. -/
theorem Reading.assemble_eq (chunks : List (List UInt8))
    : Reading.assemble { chunks, total := chunks.flatten.length } = some chunks.flatten := by
  have zeros := List.length_replicate (n := chunks.flatten.length) (a := (0 : UInt8))
  exact @setAll_eq chunks [] _ zeros

-----------------------------------------------------------------------------------------
-- Every way to split a body
-----------------------------------------------------------------------------------------

/-- The bytes of a body, which has none when it is absent. -/
def bytesOf (stream : Option (List (List UInt8))) : List UInt8 := (stream.getD []).flatten

/-- The header or the bytes decide whether the body is too large, and its bytes alone what it is. -/
theorem readJson_eq (contentLength : Option Utf16) (stream : Option (List (List UInt8)))
    : readJson contentLength stream
      = some (if declaresTooLarge contentLength ∨ maxBodyBytes < (bytesOf stream).length then .tooLarge
          else .body (jsonObject (bytesOf stream))) := by
  unfold readJson
  by_cases declared : declaresTooLarge contentLength
  · rw [if_pos declared, if_pos (.inl declared)]
  · rw [if_neg declared]
    cases stream with
    | none =>
        have empty : (jsonObject []).isNone = true := by
          decide +kernel
        rw [if_neg (by simp [declared, bytesOf]), bytesOf, Option.getD_none, List.flatten_nil,
          Option.isNone_iff_eq_none.mp empty]
    | some chunks =>
        have bytes : bytesOf (some chunks) = chunks.flatten := rfl
        rw [bytes]
        by_cases large : maxBodyBytes < chunks.flatten.length
        · rw [if_pos (.inr large)]
          dsimp only
          rw [Reading.readAll_start, if_pos large]
        · rw [if_neg (not_or.mpr ⟨declared, large⟩)]
          dsimp only
          rw [Reading.readAll_start, if_neg large]
          dsimp only
          rw [Reading.assemble_eq, Option.map_some]

/-- What the call holds on to of a stream: the chunks that it has kept when it has read some of them,
and in the end the array that it puts together.
-/
inductive Retains (chunks : List (List UInt8)) : List UInt8 → Prop where
  | kept {front rest : List (List UInt8)} {reading : Reading} (split : chunks = front ++ rest)
    (read : Reading.readAll {} front = some reading)
    : Retains chunks reading.chunks.flatten
  | assembled {reading : Reading} {bytes : List UInt8} (read : Reading.readAll {} chunks = some reading)
    (assemble : reading.assemble = some bytes)
    : Retains chunks bytes

/-- What is held is the beginning of the body, and no more than the limit. -/
theorem Retains.limit {held : List UInt8} (retains : Retains chunks held)
    : held <+: chunks.flatten ∧ held.length ≤ maxBodyBytes := by
  have kept {front : List (List UInt8)} {reading : Reading}
      (read : Reading.readAll {} front = some reading)
      : reading = { chunks := front, total := front.flatten.length }
        ∧ front.flatten.length ≤ maxBodyBytes := by
    rw [Reading.readAll_start] at read
    split at read
    · cases read
    · next small =>
        cases read
        exact ⟨rfl, not_lt.mp small⟩
  cases retains with
  | kept split read =>
      obtain ⟨rfl, small⟩ := kept read
      exact ⟨⟨_, by rw [split, List.flatten_append]⟩, small⟩
  | assembled read assemble =>
      obtain ⟨rfl, small⟩ := kept read
      rw [Reading.assemble_eq] at assemble
      cases assemble
      exact ⟨List.prefix_rfl, small⟩

/-- However a body is split and whatever length is declared, `readJson` answers that it is too large
exactly when the declared length or the body is above the limit; otherwise its answer is the JSON
object that the bytes encode, or null. It holds on to no more than the limit.
-/
theorem readJson_framing (contentLength : Option Utf16) (stream : Option (List (List UInt8)))
    : ∃ result,
        readJson contentLength stream = some result
        ∧ (result = .tooLarge
          ↔ (∃ declared, declaredLength contentLength = .finite declared ∧ 4096 < declared)
            ∨ 4096 < (bytesOf stream).length)
        ∧ (result ≠ .tooLarge → result = .body (jsonObject (bytesOf stream)))
        ∧ ∀ chunks held, stream = some chunks → Retains chunks held → held.length ≤ 4096 := by
  have declares : declaresTooLarge contentLength
      ↔ ∃ declared, declaredLength contentLength = .finite declared ∧ 4096 < declared := by
    unfold declaresTooLarge
    cases declaredLength contentLength with
    | finite declared =>
        have limit : (maxBodyBytes : ℚ) = 4096 := rfl
        rw [decide_eq_true_eq, limit]
        exact ⟨fun large => ⟨declared, rfl, large⟩, fun ⟨_, same, large⟩ => by cases same; exact large⟩
    | infinity | nan => simp
  refine ⟨_, readJson_eq contentLength stream, ?_, ?_, fun chunks held _ retains => retains.limit.2⟩
  · rw [← declares]
    split
    · next large => exact iff_of_true rfl large
    · next small => exact iff_of_false nofun small
  · intro answered
    split at answered
    · exact absurd rfl answered
    · next small => rw [if_neg small]

end WorkersAuth.DeviceAuth
