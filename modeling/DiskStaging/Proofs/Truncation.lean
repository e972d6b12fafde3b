import DiskStaging.Proofs.GzipServing
import DiskStaging.Proofs.XzServing

/-!
# Compressed data that are cut short

The end of a gzip member is its trailer, and that of an xz stream its footer. So data that
are exactly one of these and then lose something at the end are not complete any more,
wherever they are cut, and what is there of them decodes to the front of the content
(`Gzip.contents_truncated`, `XzRow.ends_truncated`).

A header that can be read from the front of some data is the same in all of them, unless the
front ends with it (`Reader.Extends`): a text field may go on behind the cut.
-/

set_option autoImplicit false

namespace DiskStaging

open Coding

namespace Reader

variable {α β : Type}

/-! ## Reading the front of data -/

/-- An action that, unless it takes all there is, does the same if more comes behind. -/
def Extends (act : Act Bytes α) : Prop :=
  ∀ bytes value rest, act bytes = .ok value rest →
    rest <:+ bytes ∧ (rest ≠ [] → ∀ more, act (bytes ++ more) = .ok value (rest ++ more))

namespace Extends

theorem pure (value : α) : Extends (Pure.pure value : Act Bytes α) := by
  intro bytes given rest ended
  cases ended
  exact ⟨List.suffix_rfl, fun _ _ => rfl⟩

theorem throw (fault : Fault) : Extends (MonadExcept.throw fault : Act Bytes α) := by
  intro bytes given rest ended
  cases ended

theorem bind {act : Act Bytes α} {next : α → Act Bytes β} (first : Extends act)
    (rest : ∀ value, Extends (next value)) : Extends (act >>= next) := by
  intro bytes value left ended
  obtain ⟨given, between, begun, ended⟩ := bind_eq_ok ended
  obtain ⟨shorter, same⟩ := first bytes given between begun
  obtain ⟨shortest, later⟩ := rest given between value left ended
  refine ⟨shortest.trans shorter, fun some more => ?_⟩
  have middle : between ≠ [] := by
    rintro rfl
    exact some (List.suffix_nil.mp shortest)
  simp only [Bind.bind, EStateM.bind, same middle more]
  exact later some more

theorem read (limit : Nat) : Extends (plain.read (some limit)) := by
  intro bytes given rest ended
  rw [plain_read] at ended
  cases ended
  refine ⟨List.drop_suffix limit bytes, fun some more => ?_⟩
  rcases Nat.le_total limit bytes.length with inside | beyond
  · rw [plain_read, List.take_append_of_le_length inside, List.drop_append_of_le_length inside]
  · exact absurd (List.drop_eq_nil_of_le beyond) some

theorem exactly (size : Nat) : Extends (plain.exactly size) := by
  intro bytes given rest ended
  obtain ⟨rfl, length⟩ := of_plain_exactly ended
  refine ⟨List.suffix_append .., fun _ more => ?_⟩
  rw [List.append_assoc, plain_exactly length]

theorem skipTo (wanted : UInt8 → Bool) : Extends (plain.skipTo wanted) := by
  intro bytes found rest ended
  rw [plain_skipTo] at ended
  induction bytes with
  | nil =>
    cases ended
    exact ⟨List.suffix_rfl, fun some => absurd rfl some⟩
  | cons byte more ih =>
    rw [skipped] at ended
    split at ended
    · rename_i stops
      cases ended
      refine ⟨List.suffix_cons .., fun _ more => ?_⟩
      rw [plain_skipTo, List.cons_append, skipped, if_pos stops]
    · rename_i goes
      obtain ⟨shorter, same⟩ := ih ended
      refine ⟨shorter.trans (List.suffix_cons ..), fun some others => ?_⟩
      have later := same some others
      rw [plain_skipTo] at later ⊢
      rw [List.cons_append, skipped, if_neg goes, later]

/-- What is put together from reads goes on alike as well. -/
theorem congruence : Congruence plain plain fun _ act _ => Extends act where
  pure := pure
  throw := throw
  bind := bind
  exactly := exactly
  skipTo := skipTo

end Extends

end Reader

namespace Gzip

open Deflate

/-! ## Members -/

/-- A trailer has eight bytes. -/
theorem length_of_readTrailer {check : UInt32} {size : Nat} {bytes rest : Bytes}
    (trailer : readTrailer Reader.plain check size bytes = .ok () rest) :
    bytes.length = 8 + rest.length := by
  obtain ⟨given, between, read, ended⟩ := bind_eq_ok trailer
  obtain ⟨rfl, length⟩ := Reader.of_plain_exactly read
  have left : between = rest := by
    split at ended
    · cases ended
    · split at ended <;> cases ended
      rfl
  rw [List.length_append, length, left]

/-- Data are exactly one member of some content: a header, deflate data and the trailer that
belongs to the content, with nothing behind it. -/
structure OneMember (data image : Bytes) : Prop where
  complete : ∃ body, readHeader Reader.plain data = .ok true body ∧
    (finish fresh body).machine.stopped = true ∧ (finish fresh body).written = image ∧
      readTrailer Reader.plain (Checksum.crc32 0 image) image.length (finish fresh body).rest =
        .ok () []

/-- A member is not complete if the end of its deflate data or of its trailer is missing. -/
theorem member_truncated {body more image : Bytes}
    (written : (finish fresh (body ++ more)).written = image)
    (trailer : readTrailer Reader.plain (Checksum.crc32 0 image) image.length
      (finish fresh (body ++ more)).rest = .ok () []) (some : more ≠ []) :
    (member fresh 0 0 body).rest = none := by
  simp only [member]
  split
  · rename_i early
    rw [finish_append, finish_stopped early] at written trailer
    have length := length_of_readTrailer trailer
    simp only [Finished.behind, List.append_nil, List.length_append, List.length_nil]
      at written length
    rw [written, Nat.zero_add, behind?]
    cases ended : readTrailer Reader.plain (Checksum.crc32 0 image) image.length
        (finish fresh body).rest with
    | error fault rest => rfl
    | ok value rest =>
      have enough := length_of_readTrailer ended
      exact absurd (List.length_eq_zero_iff.mp (by omega)) some
  · rfl

/-- **A member that is cut short is not complete**, and decodes to the front of its content. -/
theorem contents_truncated {less more image : Bytes} (one : OneMember (less ++ more) image)
    (any : less ≠ []) (some : more ≠ []) :
    (contents less).complete = false ∧ (contents less).given <+: image := by
  obtain ⟨body, header, -, written, trailer⟩ := one.complete
  rw [contents_eq]
  cases front : readHeader Reader.plain less with
  | error fault rest => exact ⟨rfl, List.nil_prefix⟩
  | ok found rest =>
    cases found with
    | false => exact absurd (whole_of_readHeader Reader.plain_serves rfl front).1 any
    | true =>
      -- Where the front ends with its header, nothing is known of the header of all data.
      have cut : (member fresh 0 0 rest).rest = none ∧ rest <+: body := by
        by_cases empty : rest = []
        · rw [empty]
          exact ⟨member_nil fresh 0 0, List.nil_prefix⟩
        · obtain ⟨-, same⟩ :=
            readHeader_congr Reader.Extends.congruence (.read 2) less true rest front
          have longer := (same empty more).symm.trans header
          cases longer
          exact ⟨member_truncated written trailer some, List.prefix_append ..⟩
      obtain ⟨broken, others, rfl⟩ := cut
      refine ⟨complete_contentsOf broken, ?_⟩
      rw [← written, given_contentsOf broken]
      exact finish_written_prefix fresh rest others

end Gzip

namespace XzRow

/-! ## Streams -/

/-- Data are exactly one stream of some content, with nothing behind it. -/
structure OneStream (data image : Bytes) : Prop where
  stopped : (finish fresh data).machine.stopped = true
  written : (finish fresh data).written = image
  rest : (finish fresh data).rest = []

/-- **A stream that is cut short is not complete**, and decodes to the front of its content. -/
theorem ends_truncated {less more image : Bytes} (one : OneStream (less ++ more) image)
    (some : more ≠ []) :
    Ends true (finish fresh less) (finish fresh less).written false ∧
      (finish fresh less).written <+: image := by
  have going : (finish fresh less).machine.stopped = false := by
    refine Bool.eq_false_iff.mpr fun early => ?_
    have rest := one.rest
    rw [finish_append, finish_stopped early] at rest
    exact some (List.append_eq_nil_iff.mp rest).2
  refine ⟨.cut going, ?_⟩
  rw [← one.written]
  exact finish_written_prefix fresh less more

end XzRow

end DiskStaging
