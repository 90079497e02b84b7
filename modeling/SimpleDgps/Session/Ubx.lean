import SimpleDgps.Session.Model

/-!
# A Framing of the Receiver's Protocol

One value for the parameter the session model leaves open.

A frame is two synchronisation bytes, a class and a message number, the length
of the payload in two bytes, the payload, and a checksum of two bytes over
everything after the synchronisation. Written through an iterator that cannot
read back, the checksum is left zero at first and the buffer has to be updated.

The step that takes frames off the input waits for a whole frame, skips a byte
that cannot start one, and yields the payload of the one message the session
reads. `ubxFramer` shows that such a step obeys the laws of a `Framer`, and
`ubxStep_encode` that it finds what `encode` wrote, so the theorems about
sessions are about something.

## Main definitions

* `checksum`: The running checksum of the protocol.
* `encode`: A frame around a payload.
* `ubxStep`, `ubxFramer`: The step that takes frames off the input.
* `ubxWrite`, `ubxUpdate`, `ubxFrame`: Writing frames.
* `freshSession`, `openingWith`: A session and an environment to try them on.

## Theorems

* `ubxStep_header`: The step once the header is there.
* `ubxStep_encode`: A written frame is taken off whole.
-/

namespace SimpleDgps

open Toolkit

/-- The running checksum, low byte first. -/
def checksum (bytes : List UInt8) : List UInt8 :=
  let ck := bytes.foldl (fun (a, b) byte => (a + byte, b + (a + byte))) ((0 : UInt8), (0 : UInt8))
  [ck.1, ck.2]

/-- Class, number, length and payload. -/
def ubxBody (cls id : UInt8) (payload : List UInt8) : List UInt8 :=
  cls :: id :: UInt8.ofNat payload.length :: UInt8.ofNat (payload.length / 256) :: payload

/-- A frame around a payload. -/
def encode (cls id : UInt8) (payload : List UInt8) : List UInt8 :=
  0xB5 :: 0x62 :: (ubxBody cls id payload ++ checksum (ubxBody cls id payload))

/-- What a whole frame is taken for. Its payload is a message if the checksum
    holds and the frame is a position solution. -/
def ubxTake (cls id lo hi : UInt8) (n : Nat) (tail : List UInt8) : Nat × Option (List UInt8) :=
  if (tail.drop n).take 2 = checksum (cls :: id :: lo :: hi :: tail.take n) then
    (n + 8, if cls = 0x01 ∧ id = 0x02 then some (tail.take n) else none)
  else (1, none)

/-- The step that takes frames off the input. -/
def ubxStep : List UInt8 → Option (Nat × Option (List UInt8))
  | sync1 :: sync2 :: cls :: id :: lo :: hi :: tail =>
    let n := lo.toNat + 256 * hi.toNat
    if sync1 = 0xB5 ∧ sync2 = 0x62 then
      if n + 2 ≤ tail.length then some (ubxTake cls id lo hi n tail) else none
    else some (1, none)
  | _ => none

theorem ubxTake_bounds (cls id lo hi : UInt8) (n : Nat) (tail : List UInt8)
    (h : n + 2 ≤ tail.length) :
    0 < (ubxTake cls id lo hi n tail).1 ∧
      (ubxTake cls id lo hi n tail).1 ≤ tail.length + 6 := by
  unfold ubxTake
  split_ifs <;> simp only <;> omega

theorem ubxTake_append (cls id lo hi : UInt8) (n : Nat) (tail more : List UInt8)
    (h : n + 2 ≤ tail.length) :
    ubxTake cls id lo hi n (tail ++ more) = ubxTake cls id lo hi n tail := by
  have htake : (tail ++ more).take n = tail.take n :=
    List.take_append_of_le_length (by omega)
  have hck : ((tail ++ more).drop n).take 2 = (tail.drop n).take 2 := by
    rw [List.drop_append_of_le_length (by omega), List.take_append_of_le_length]
    rw [List.length_drop]
    omega
  unfold ubxTake
  rw [htake, hck]

/-- A buffer on which the step takes something has a whole header. -/
theorem ubxStep_header (buf : List UInt8) (r : Nat × Option (List UInt8))
    (h : ubxStep buf = some r) :
    ∃ sync1 sync2 cls id lo hi tail, buf = sync1 :: sync2 :: cls :: id :: lo :: hi :: tail := by
  unfold ubxStep at h
  split at h
  · rename_i sync1 sync2 cls id lo hi tail
    exact ⟨sync1, sync2, cls, id, lo, hi, tail, rfl⟩
  · cases h

theorem ubxStep_bounds (buf : List UInt8) (r : Nat × Option (List UInt8))
    (h : ubxStep buf = some r) : 0 < r.1 ∧ r.1 ≤ buf.length := by
  rcases ubxStep_header buf r h with ⟨sync1, sync2, cls, id, lo, hi, tail, rfl⟩
  simp only [ubxStep] at h
  split_ifs at h with hsync hlength
  · rw [← Option.some.inj h]
    exact ubxTake_bounds cls id lo hi _ tail hlength
  · rw [← Option.some.inj h]
    simp only [List.length_cons]
    omega

theorem ubxStep_extend (buf more : List UInt8) (r : Nat × Option (List UInt8))
    (h : ubxStep buf = some r) : ubxStep (buf ++ more) = some r := by
  rcases ubxStep_header buf r h with ⟨sync1, sync2, cls, id, lo, hi, tail, rfl⟩
  simp only [ubxStep] at h
  simp only [ubxStep, List.cons_append, List.length_append]
  split_ifs at h with hsync hlength
  · rw [if_pos hsync, if_pos (by omega), ubxTake_append cls id lo hi _ tail more hlength]
    exact h
  · rw [if_neg hsync]
    exact h

/-- The step obeys the laws of incremental framing. -/
def ubxFramer : Framer UInt8 (List UInt8) where
  step := ubxStep
  pos := fun buf n m h => (ubxStep_bounds buf (n, m) h).1
  le := fun buf n m h => (ubxStep_bounds buf (n, m) h).2
  extend := fun buf more n m h => ubxStep_extend buf more (n, m) h

/-- A written frame is taken off whole, whatever follows it. -/
theorem ubxStep_encode (payload more : List UInt8) (h : payload.length < 65536) :
    ubxStep (encode 0x01 0x02 payload ++ more) = some (payload.length + 8, some payload) := by
  have hn : (UInt8.ofNat payload.length).toNat + 256 * (UInt8.ofNat (payload.length / 256)).toNat
      = payload.length := by
    rw [UInt8.toNat_ofNat', UInt8.toNat_ofNat']
    omega
  have hck : ∀ l : List UInt8, (checksum l).length = 2 := fun l => rfl
  unfold encode ubxBody
  simp only [List.cons_append, List.append_assoc, ubxStep, hn, and_self, if_true]
  rw [if_pos]
  · unfold ubxTake
    rw [List.take_left, List.drop_left, List.take_append_of_le_length (Nat.le_of_eq (hck _).symm),
      List.take_of_length_le (Nat.le_of_eq (hck _)), if_pos rfl, if_pos ⟨rfl, rfl⟩]
  · rw [List.length_append, List.length_append, hck]
    omega

/-! ### Writing -/

/-- A mask as a number. -/
def maskByte (mask : ProtoMask) : UInt8 :=
  (if mask.ubx then 1 else 0) + (if mask.nmea then 2 else 0)

/-- The frame of a message with a zero checksum. -/
def ubxWrite : OutMessage → List UInt8 × ErrorStatus
  | .cfgPrtUsb outProtoMask inProtoMask =>
    (0xB5 :: 0x62 :: ubxBody 0x06 0x00 ([3, 0, 0, 0, 0, 0, 0, 0, 0, 0, 0, 0] ++
      [maskByte inProtoMask, 0, maskByte outProtoMask, 0, 0, 0, 0, 0]) ++ [0, 0], .updateRequired)
  | .navPosllhPoll => (0xB5 :: 0x62 :: ubxBody 0x01 0x02 [] ++ [0, 0], .updateRequired)

/-- Fill the checksum in. -/
def ubxUpdate (buf : List UInt8) : List UInt8 × ErrorStatus :=
  (buf.dropLast.dropLast ++ checksum (buf.dropLast.dropLast.drop 2), .success)

def ubxFrame : Frame (List UInt8) where
  input := ubxFramer
  write := ubxWrite
  update := ubxUpdate
  succeeds := fun msg => by cases msg <;> rfl

example : ubxFrame.bytes .navPosllhPoll = encode 0x01 0x02 [] := by decide

/-- A session that was just constructed, its input buffer all zero. -/
def freshSession : Session (List UInt8) :=
  Session.initial "/dev/ttyACM0"
    { bytes := List.replicate inputBufSize 0, size := List.length_replicate }

/-- An environment in which the port opens and takes its options. -/
def openingWith (outcomes : List WriteSome) : Session.StartEnv :=
  { opened := .success, setOption := fun _ => none, outcomes := outcomes }

end SimpleDgps
