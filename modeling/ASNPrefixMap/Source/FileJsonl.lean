import ASNPrefixMap.Lib.Exception

/-!
# The replay source

`src/source/file_jsonl_source.cpp`: raw messages stored one per line. Empty
lines are passed over, so the messages to come are the nonempty lines not read
yet (`FileJsonlSource.messages`).

Mirroring notes:

- `input_` is the text that is left to read, split into lines once, when the
  source is created. The code reads the file line by line, so it would also see
  lines that are appended while it reads.
- `std::getline` gives the bytes up to a newline, also those of a last line
  without one. A carriage return stays in the line.
- The only error is a file that cannot be opened; a read error in the middle
  counts as the end.
-/

namespace ASNPrefixMap.Source

open Lib

/-- The stream, as the lines `std::getline` has not returned yet. -/
structure FileJsonlSource where
  input : List Bytes

/-- The constructor; `input` is the content of the file, if it can be opened. -/
def FileJsonlSource.create (path : Bytes) (input : Option Bytes) : Except Exception FileJsonlSource :=
  match input with
  | none => .error (.runtimeError (bytes "Failed to open input file: " ++ path))
  | some text => .ok ⟨getLines text⟩

/-- The loop of `next_message`. -/
def nextNonempty : List Bytes → Option Bytes × List Bytes
  | [] => (none, [])
  | json :: rest => if json = [] then nextNonempty rest else (some json, rest)

/-- `next_message`: the text it stores when it returns true, `none` when it
returns false. -/
def FileJsonlSource.nextMessage (source : FileJsonlSource) : Option Bytes × FileJsonlSource :=
  ((nextNonempty source.input).1, ⟨(nextNonempty source.input).2⟩)

/-- What is still to be read. -/
def FileJsonlSource.messages (source : FileJsonlSource) : List Bytes :=
  source.input.filter fun json => json ≠ []

/-- `next_message` returns the first line that is not empty and leaves those
after it, so what it has not handed out is told by the nonempty lines alone. -/
theorem nextNonempty_spec : ∀ lines : List Bytes,
    (nextNonempty lines).1 = (lines.filter fun json => json ≠ []).head? ∧
      (nextNonempty lines).2.filter (fun json => json ≠ []) =
        (lines.filter fun json => json ≠ []).tail := by
  intro lines
  induction lines with
  | nil => exact ⟨rfl, rfl⟩
  | cons json rest ih =>
    unfold nextNonempty
    by_cases h : json = []
    · rw [if_pos h, List.filter_cons_of_neg (by simp [h])]
      exact ih
    · rw [if_neg h, List.filter_cons_of_pos (by simp [h])]
      exact ⟨rfl, rfl⟩

/-- A call returns the first message there is, and takes it away. -/
theorem FileJsonlSource.nextMessage_spec (source : FileJsonlSource) :
    source.nextMessage.1 = source.messages.head? ∧
      source.nextMessage.2.messages = source.messages.tail :=
  nextNonempty_spec source.input

end ASNPrefixMap.Source
