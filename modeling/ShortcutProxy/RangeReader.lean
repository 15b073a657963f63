import Mathlib

/-!
# Reading an object by blocks

`_RangeReader` moves freely in an object and serves its reads from one cached block. What is
cached is always the object's block at that start, so a read delivers the bytes at the
position and stops only where the buffer, the block or the object ends.
-/

namespace ShortcutProxy.RangeReader

open List

structure Reader (β : Type) where
  position : Nat := 0
  cachedStart : Int := -1
  cachedData : List β := []

variable {β : Type} (blockSize : Nat) (data : List β) (reader : Reader β)

/-- `_read_range`: exactly the bytes asked for. -/
def readRange (start size : Nat) : List β := (data.drop start).take size

/-- `seek`; the modes 0, 1 and 2 count from the start, the position and the end. -/
def seek (offset whence : Int) : Except String Nat × Reader β :=
  let move (position : Int) : Except String Nat × Reader β :=
    if position < 0 then (.error "negative seek position", reader)
    else (.ok position.toNat, { reader with position := position.toNat })
  match whence with
  | 0 => move offset
  | 1 => move (reader.position + offset)
  | 2 => move (data.length + offset)
  | _ => (.error ("invalid seek mode: " ++ toString whence), reader)

/-- The reader once it holds the block of its position. -/
def load : Reader β :=
  let blockStart := reader.position / blockSize * blockSize
  if blockStart ≠ reader.cachedStart then
    { reader with
      cachedData := readRange data blockStart (min blockSize (data.length - blockStart))
      cachedStart := blockStart }
  else reader

/-- `readinto`: the number of bytes read and the buffer after it. -/
def readinto (buffer : List β) : (Nat × List β) × Reader β :=
  if data.length ≤ reader.position ∨ buffer = [] then ((0, buffer), reader)
  else
    let reader := load blockSize data reader
    let offset := reader.position - reader.cachedStart
    let count := min (min (buffer.length : Int) (reader.cachedData.length - offset))
      (data.length - reader.position)
    if count ≤ 0 then ((0, buffer), reader)
    else
      let read := (reader.cachedData.drop offset.toNat).take count.toNat
      ((count.toNat, read ++ buffer.drop count.toNat),
        { reader with position := reader.position + count.toNat })

/-- The readers that `seek` and `readinto` lead to. -/
inductive Reached : Reader β → Prop
  | opened : Reached {}
  | seek {reader : Reader β} (offset whence : Int) : Reached reader →
      Reached (seek data reader offset whence).2
  | readinto {reader : Reader β} (buffer : List β) : Reached reader →
      Reached (readinto blockSize data reader buffer).2

/-- The bytes that reads into these buffers deliver, one after another. -/
def drain : Reader β → List (List β) → List β
  | _, [] => []
  | reader, buffer :: rest =>
    let ((count, filled), after) := readinto blockSize data reader buffer
    filled.take count ++ drain after rest

/-- What is cached is a block of the object. -/
def Faithful : Prop :=
  ∀ start : Nat, reader.cachedStart = start →
    reader.cachedData = readRange data start (min blockSize (data.length - start))

/-- The read of so many bytes at the position, none only into an empty buffer or at the
end. -/
structure Delivers (buffer : List β) (count : Nat) (after : Reader β) : Prop where
  read : readinto blockSize data reader buffer =
    ((count, readRange data reader.position count ++ buffer.drop count), after)
  length : (readRange data reader.position count).length = count
  advanced : after.position = reader.position + count
  zero : count = 0 ↔ buffer = [] ∨ data.length ≤ reader.position

section

variable {blockSize data reader}

theorem Faithful.load (faithful : Faithful blockSize data reader) :
    let loaded := load blockSize data reader
    Faithful blockSize data loaded ∧ loaded.position = reader.position ∧
      loaded.cachedStart = (reader.position / blockSize * blockSize : Nat) := by
  unfold RangeReader.load
  dsimp only
  split
  · exact ⟨fun start same => by cases same; rfl, rfl, rfl⟩
  · next same => exact ⟨faithful, rfl, (not_not.mp same).symm⟩

variable (faithful : Faithful blockSize data reader) (positive : 0 < blockSize)

include faithful positive

theorem Faithful.readinto (buffer : List β) :
    ∃ count after, Delivers blockSize data reader buffer count after ∧
      Faithful blockSize data after := by
  by_cases ended : data.length ≤ reader.position ∨ buffer = []
  · refine ⟨0, reader, ⟨?_, by simp [readRange], rfl, by simp [or_comm, ended]⟩, faithful⟩
    rw [RangeReader.readinto, if_pos ended]
    rfl
  obtain ⟨loaded, kept, start⟩ := faithful.load
  have block := loaded _ start
  obtain ⟨before, nonempty⟩ := not_or.mp ended
  have room := length_pos_iff.mpr nonempty
  have division := Nat.div_add_mod' reader.position blockSize
  have inside := Nat.mod_lt reader.position positive
  generalize reader.position / blockSize * blockSize = first at *
  have length : (readRange data first (min blockSize (data.length - first))).length =
      min blockSize (data.length - first) := by simp [readRange]
  generalize sized : min blockSize (data.length - first) = size at *
  -- the block reaches past the position, so at least one byte is read
  let count := min buffer.length (size - (reader.position - first))
  have amount : min (min (buffer.length : Int) (size - ((reader.position : Int) - first)))
      (data.length - reader.position) = count := by omega
  refine ⟨count, { RangeReader.load blockSize data reader with
    position := reader.position + count }, ⟨?_, ?_, rfl, ?_⟩, loaded⟩
  · have offset : ((reader.position : Int) - first).toNat = reader.position - first := by omega
    rw [RangeReader.readinto, if_neg ended]
    dsimp only
    rw [block, length, start, kept, amount, offset, if_neg (by omega), Int.toNat_natCast,
      readRange, readRange, drop_take, drop_drop, take_take,
      Nat.min_eq_left (Nat.min_le_right ..), Nat.add_sub_cancel' (by omega)]
  · simp [readRange]
    omega
  · exact ⟨by omega, fun stops => absurd (stops.resolve_left nonempty) before⟩

/-- As many reads as bytes remain deliver them all, as each delivers one at least. -/
theorem Faithful.drain {buffers : List (List β)} (nonempty : [] ∉ buffers)
    (enough : data.length - reader.position ≤ buffers.length) :
    drain blockSize data reader buffers = data.drop reader.position := by
  induction buffers generalizing reader with
  | nil => exact (drop_eq_nil_of_le (Nat.le_of_sub_eq_zero (Nat.le_zero.mp enough))).symm
  | cons buffer rest ih =>
    rw [mem_cons, not_or] at nonempty
    obtain ⟨count, after, delivers, next⟩ := faithful.readinto positive buffer
    have zero := delivers.zero
    have reached := ih next nonempty.2 (by grind [delivers.advanced])
    rw [RangeReader.drain, delivers.read]
    dsimp only
    rw [reached, delivers.advanced, take_left' delivers.length, readRange, ← drop_drop,
      take_append_drop]

omit faithful

/-- After any calls a read delivers the object's bytes at the position, and reading on
delivers all that remain. -/
theorem reads_exact (reached : Reached blockSize data reader) :
    (∀ buffer, ∃ count after, Delivers blockSize data reader buffer count after) ∧
      ∀ buffers, [] ∉ buffers → data.length - reader.position ≤ buffers.length →
        drain blockSize data reader buffers = data.drop reader.position := by
  have faithful : Faithful blockSize data reader := by
    induction reached with
    | opened => exact fun start absent => by cases absent
    | seek offset whence _ ih =>
      unfold seek
      dsimp only
      repeat' split
      all_goals exact ih
    | readinto buffer _ ih =>
      obtain ⟨count, after, delivers, next⟩ := ih.readinto positive buffer
      rw [delivers.read]
      exact next
  refine ⟨fun buffer => ?_, fun buffers => faithful.drain positive⟩
  obtain ⟨count, after, delivers, _⟩ := faithful.readinto positive buffer
  exact ⟨count, after, delivers⟩

end

theorem reads_exact_blocks :
    drain 2 [1, 2, 3] (seek [1, 2, 3] {} 1 0).2 [[0], [0]] = [2, 3] :=
  (reads_exact (by decide) (.seek 1 0 .opened)).2 _ (by decide) (by decide)

end ShortcutProxy.RangeReader
