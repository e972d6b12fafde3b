import DiskStaging.Proofs.Sniffing

/-!
# The image that data hold

The image that the data of an object hold is what is left of them when one level of compression
is taken off (`Unpacks`), and data hold one image at most (`Unpacks.unique`). If a source was
classified and then read until nothing comes, and nothing went wrong, then what was read is
the image that all its data hold, and the format that was found is that of the image
(`unpacks_of_poured`). This is so however the source gives its data, and even if reading it
would have broken off later, behind what was read of it.
-/

set_option autoImplicit false

namespace DiskStaging

/-! ## Images -/

/-- Data hold an image, one level of compression taken off. -/
inductive Unpacks (data : Bytes) : Bytes → Prop
  | plain (plain : Image.compression? data = none) : Unpacks data data
  | gzip (packed : Image.compression? data = some .gzip)
    (complete : (Gzip.contents data).complete = true) : Unpacks data (Gzip.contents data).given
  | xz {image : Bytes} (packed : Image.compression? data = some .xz)
    (yields : XzRow.Yields (Coding.finish XzRow.fresh data) image) : Unpacks data image

/-- **Data hold one image at most.** -/
theorem Unpacks.unique {data first second : Bytes} (unpacks : Unpacks data first)
    (other : Unpacks data second) : first = second := by
  cases unpacks with
  | plain plain =>
    cases other with
    | plain => rfl
    | gzip packed | xz packed => cases plain.symm.trans packed
  | gzip packed =>
    cases other with
    | plain plain => cases plain.symm.trans packed
    | gzip => rfl
    | xz again => cases packed.symm.trans again
  | xz packed yields =>
    cases other with
    | plain plain => cases plain.symm.trans packed
    | gzip again => cases packed.symm.trans again
    | xz _ others => exact yields.unique others

namespace Image

theorem magic_of_compression? {image : Bytes} {compression : Compression}
    (packed : compression? image = some compression) : compressionMagic compression <+: image := by
  have magic := List.find?_some (p := fun known => (compressionMagic known).isPrefixOf image) packed
  exact List.isPrefixOf_iff_prefix.mp magic

end Image

/-! ## Sources -/

namespace Source

/-- What a source still gives is the front of its data, and all of them if it is whole. -/
theorem rest_eq (source : Source) :
    ∃ cut, source.rest = source.remaining ++ cut ∧ (source.whole = true → cut = []) := by
  by_cases shut : source.closed = true
  · refine ⟨source.rest, ?_, ?_⟩
    · rw [remaining, if_pos shut, List.nil_append]
    · intro all
      rw [whole, shut] at all
      cases all
  · obtain ⟨cut, split⟩ :=
      prefix_atMost (source.failure.map (·.position - source.position)) source.rest
    refine ⟨cut, ?_, ?_⟩
    · rw [remaining, if_neg shut, split]
    · intro all
      cases ahead : source.failure with
      | none =>
        rw [ahead] at split
        exact List.append_right_eq_self.mp split
      | some failure =>
        have further : source.position + source.rest.length < failure.position := by
          simpa [whole, shut, ahead] using all
        rw [ahead] at split
        replace split : source.rest.take (failure.position - source.position) ++ cut =
          source.rest := split
        rw [List.take_of_length_le (by omega)] at split
        exact List.append_right_eq_self.mp split

/-- A source of empty pieces gives nothing. -/
theorem continues_stalled :
    reader.Continues (fun source given => source.most = some 0 ∧ given = []) (· = [])
      fun _ => True := by
  rintro size source _ ⟨stalled, rfl⟩
  cases broken : source.fault? with
  | some fault =>
    simp only [reader, read, broken]
    trivial
  | none =>
    have nothing : source.piece size = [] := by
      cases size <;> simp [piece, atMost, stalled]
    simp only [reader, read, broken, nothing]
    exact ⟨fun _ _ => Nat.zero_le _, fun _ _ => rfl, stalled, rfl⟩

end Source

section Classifying

variable {source : Source} {found : Sniffed} {content : Content}

/-- A source of empty pieces is not classified. -/
theorem most_ne_zero_of_sniff (sniffed : sniff sniffSize (.ofSource source) = .ok found content) :
    source.most ≠ some 0 := by
  intro stalled
  rw [sniff_eq] at sniffed
  cases looked : header sniffSize (.ofSource source) with
  | error fault after =>
    rw [looked] at sniffed
    cases sniffed
  | ok leading after =>
    rw [looked] at sniffed
    obtain ⟨front, left, rfl, ⟨-, -, nothing⟩, rfl, -⟩ :=
      @kept_of_header _ _ _ {} source 512 _ _ Source.continues_stalled _ Content.peek_root rfl
        ⟨rfl, stalled, rfl⟩ _ _ looked
    rw [List.nil_append] at nothing
    rw [nothing] at sniffed
    cases sniffed

/-- **What is read of a source until nothing comes is the image that its data hold**, if nothing
goes wrong, and the format that was found is that of the image. -/
theorem unpacks_of_poured (sniffed : sniff sniffSize (.ofSource source) = .ok found content)
    {size : Option Nat} (asked : size ≠ some 0) (unbroken : (content.pour size).fault = none) :
    Unpacks source.rest (content.pour size).content.toList ∧
      Image.format (content.pour size).content.toList = .ok found.format := by
  have held : source.Holds source.whole source.remaining :=
    ⟨most_ne_zero_of_sniff sniffed, rfl, rfl⟩
  obtain ⟨cut, split, last⟩ := source.rest_eq
  cases packed : Image.compression? source.remaining with
  | none =>
    have classified := sniff_plain held packed
    rw [sniffed] at classified
    obtain ⟨-, format, -, left, front, rfl, kept, -⟩ := classified
    obtain ⟨all, whole⟩ := (Content.givesAll_root kept).gives.pour asked |>.2 unbroken
    rw [all, split, last whole, List.append_nil]
    exact ⟨.plain packed, format⟩
  | some compression =>
    have magic := Image.magic_of_compression? packed
    cases compression with
    | gzip =>
      have unpacked := sniff_gzip (Source.serves source.whole) held magic
      rw [sniffed] at unpacked
      obtain ⟨-, format, gives, -⟩ := unpacked
      obtain ⟨all, complete⟩ := gives.pour asked |>.2 unbroken
      obtain ⟨complete, whole⟩ := Bool.and_eq_true_iff.mp complete
      rw [all, split, last whole, List.append_nil]
      exact ⟨.gzip packed complete, format⟩
    | xz =>
      have promises := promises_of_sniff_xz (by decide : qcow2HeaderSize ≤ 512)
        (Source.serves source.whole) held magic last sniffed
      obtain ⟨yields, format⟩ := promises.pour asked unbroken
      rw [split]
      exact ⟨.xz (Image.compression?_xz (magic.trans (List.prefix_append ..))) yields, format⟩

end Classifying

end DiskStaging
