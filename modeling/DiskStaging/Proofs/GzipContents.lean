import DiskStaging.Proofs.Tracking
import DiskStaging.Proofs.WholeRuns
import DiskStaging.Stream.Gzip

/-!
# What gzip data decode to

Gzip data that are there at once decode to the contents of their members, one after
the other. They are complete if every member is, with the check value and the size
that its trailer states, and if nothing but padding is between and behind them
(`contents`).
-/

set_option autoImplicit false

namespace DiskStaging.Gzip

open Coding Deflate

variable {φ : Type}

/-- The header of a member takes some bytes. -/
theorem length_lt_of_readHeader {bytes body : Bytes}
    (header : readHeader Reader.plain bytes = .ok true body) : body.length < bytes.length := by
  have fixed := readFixed_congr Reader.plain.thrifty_congruence (bytes.drop 2)
  simp only [readHeader, Bind.bind, EStateM.bind, Reader.plain_read] at header
  cases bytes with
  | nil => cases header
  | cons byte more =>
    split at header
    · cases header
    · split at header
      · cases header
      · rw [header] at fixed
        change 0 + body.length ≤ ((byte :: more).drop 2).length at fixed
        rw [List.length_drop] at fixed
        have some : 0 < (byte :: more).length := Nat.succ_pos _
        omega

/-- The fresh decoder of a member. -/
def fresh : Pending Deflate.Fault Inflate := .of Inflate.start

/-- What comes behind the trailer of a member and the padding, if the trailer states
the given check value and size. -/
def behind? (check : UInt32) (size : Nat) (bytes : Bytes) : Option Bytes :=
  match readTrailer Reader.plain check size bytes with
  | .error _ _ => none
  | .ok () rest => some (rest.dropWhile (· = 0))

theorem length_behind?_le {check : UInt32} {size : Nat} {bytes rest : Bytes}
    (behind : behind? check size bytes = some rest) : rest.length ≤ bytes.length := by
  have spent := readTrailer_congr Reader.plain.thrifty_congruence check size bytes
  unfold behind? at behind
  split at behind
  · cases behind
  · rename_i after trailer
    rw [trailer] at spent
    cases behind
    change 0 + after.length ≤ bytes.length at spent
    have shorter := (List.dropWhile_suffix (l := after) (· = 0)).length_le
    omega

/-- What is left of a member. -/
structure Member where
  given : Bytes
  /-- What comes behind the member and the padding, if the member is complete. -/
  rest : Option Bytes

/-- Decodes the rest of a member that gave content with the given check value and size. -/
def member (inflate : Pending Deflate.Fault Inflate) (check : UInt32) (size : Nat)
    (bytes : Bytes) : Member :=
  let decoded := finish inflate bytes
  ⟨decoded.written,
    if decoded.machine.stopped then
      behind? (Checksum.crc32 check decoded.written) (size + decoded.written.length) decoded.rest
    else none⟩

theorem length_member_le {inflate : Pending Deflate.Fault Inflate} {check : UInt32} {size : Nat}
    {bytes rest : Bytes} (complete : (member inflate check size bytes).rest = some rest) :
    rest.length ≤ bytes.length := by
  have shorter := (finish_rest_suffix inflate bytes).length_le
  simp only [member] at complete
  split at complete
  · have behind := length_behind?_le complete
    omega
  · cases complete

/-- What data decode to. -/
structure Contents where
  given : Bytes
  /-- Whether the data are all in order. -/
  complete : Bool
  deriving DecidableEq

/-- What comes behind some bytes, with these in front. -/
def Contents.behind (given : Bytes) (contents : Contents) : Contents :=
  { contents with given := given ++ contents.given }

/-- What gzip data decode to that begin with the header of a member. -/
def contents (bytes : Bytes) : Contents :=
  match _header : readHeader Reader.plain bytes with
  | .error _ _ => ⟨[], false⟩
  | .ok false _ => ⟨[], true⟩
  | .ok true body =>
    match _complete : (member fresh 0 0 body).rest with
    | none => ⟨(member fresh 0 0 body).given, false⟩
    | some rest => (contents rest).behind (member fresh 0 0 body).given
termination_by bytes.length
decreasing_by
  exact Nat.lt_of_le_of_lt (length_member_le _complete) (length_lt_of_readHeader _header)

/-- What data decode to that go on with a member. -/
def contentsOf (member : Member) : Contents :=
  match member.rest with
  | none => ⟨member.given, false⟩
  | some rest => (contents rest).behind member.given

theorem contents_eq (bytes : Bytes) :
    contents bytes =
      match readHeader Reader.plain bytes with
      | .error _ _ => ⟨[], false⟩
      | .ok false _ => ⟨[], true⟩
      | .ok true body => contentsOf (member fresh 0 0 body) := by
  rw [contents]
  cases readHeader Reader.plain bytes with
  | error fault rest => rfl
  | ok found body =>
    cases found with
    | false => rfl
    | true =>
      simp only [contentsOf]
      split <;> rename_i complete <;> rw [complete]

/-- Nothing is a row of no members. -/
theorem contents_nil : contents [] = ⟨[], true⟩ := by
  rw [contents_eq]
  rfl

/-! ## Decoding a member bit by bit -/

/-- The same member with more content in front. -/
def Member.behind (given : Bytes) (member : Member) : Member :=
  { member with given := given ++ member.given }

theorem contentsOf_behind (given : Bytes) (member : Member) :
    contentsOf (member.behind given) = (contentsOf member).behind given := by
  obtain ⟨content, rest⟩ := member
  cases rest with
  | none => rfl
  | some rest => simp only [contentsOf, Member.behind, Contents.behind, List.append_assoc]

theorem complete_contentsOf {member : Member} (broken : member.rest = none) :
    (contentsOf member).complete = false := by
  rw [contentsOf, broken]

theorem given_contentsOf {member : Member} (broken : member.rest = none) :
    (contentsOf member).given = member.given := by
  rw [contentsOf, broken]

/-- There is no trailer where there is nothing. -/
theorem behind?_nil (check : UInt32) (size : Nat) : behind? check size [] = none := by
  obtain ⟨fault, rest, short⟩ :=
    Reader.plain_exactly_of_short (show ([] : Bytes).length < 8 by decide)
  simp only [behind?, readTrailer, Bind.bind, EStateM.bind, short]

/-- Nothing completes a member that there is nothing left of. -/
theorem member_nil (inflate : Pending Deflate.Fault Inflate) (check : UInt32) (size : Nat) :
    (member inflate check size []).rest = none := by
  have nothing := List.suffix_nil.mp (finish_rest_suffix inflate [])
  simp only [member, nothing, behind?_nil, ite_self]

/-- Where the decoder has stopped, the trailer comes next. -/
theorem member_stopped {inflate : Pending Deflate.Fault Inflate} (stopped : inflate.stopped = true)
    (check : UInt32) (size : Nat) (bytes : Bytes) :
    member inflate check size bytes = ⟨[], behind? check size bytes⟩ := by
  simp only [member, finish_stopped stopped, Checksum.crc32_nil, stopped, if_true, List.length_nil,
    Nat.add_zero]

/-- What a member decodes to is what a block of it decodes to and then the rest. -/
theorem member_decode (gzip : Gzip) (block more : Bytes) (room : Nat) :
    member gzip.inflate gzip.check gzip.size (block ++ more) =
      (member (decode gzip block room).gzip.inflate (decode gzip block room).gzip.check
        (decode gzip block room).gzip.size
        ((decode gzip block room).rest ++ more)).behind (decode gzip block room).given := by
  obtain ⟨given, content, same⟩ := finish_run gzip.inflate block more room #[]
  rw [List.nil_append] at content
  simp only [member, decode, same, content, Finished.behind, Member.behind,
    Checksum.crc32_append, List.length_append, Nat.add_assoc]

/-- A fault of the decoder leaves the member incomplete. -/
theorem member_of_fault {gzip : Gzip} {block : Bytes} {room : Nat} {why : Deflate.Fault}
    (failed : (decode gzip block room).fault = some why) (more : Bytes) :
    (member gzip.inflate gzip.check gzip.size (block ++ more)).rest = none := by
  have stuck := finish_failed failed ((decode gzip block room).rest ++ more)
  rw [member_decode gzip block more room]
  simp only [Member.behind, member]
  rw [if_neg]
  simpa [decode] using stuck

theorem length_decode_le (gzip : Gzip) (block : Bytes) (room : Nat) :
    (decode gzip block room).given.length ≤ room := by
  have fits := size_run_le gzip.inflate block room #[]
  simpa [decode] using fits

end DiskStaging.Gzip
