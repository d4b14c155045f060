import BoardBlob.Proofs.AcceptedView
import BoardBlob.Proofs.TextBytes

/-!
# What parsing says of any bytes

Parsing makes five checks of some bytes, and the first that fails is the fault. `Verdict` tells the
outcome by the bytes alone: it has one clause for each outcome, and a clause holds all that the
earlier checks established, so no number is used before the check that justifies its use. The
verdict is what `parse` gives, for all bytes (`parse_precedence`).
-/
namespace BoardBlob

namespace Format

variable {bytes : List UInt8} {position : Nat} {number other : UInt32}

/-- The four bytes from a position on are those of a number, least significant first. -/
def StoresAt (bytes : List UInt8) (position : Nat) (number : UInt32) : Prop :=
  slice? bytes position (position + 4) = some (LittleEndian.encode 4 number.toNat)

instance : Decidable (StoresAt bytes position number) :=
  inferInstanceAs (Decidable (slice? bytes position (position + 4) = _))

/-- The bytes hold a whole header, and it starts with the letters of the signature and three zero
bytes. -/
structure Signed (bytes : List UInt8) : Prop where
  /-- The header is whole. -/
  long : 24 ≤ bytes.length
  /-- All eight bytes of the signature are there. -/
  signature : bytes.take 8 = Utf8.bytes "odtr3" ++ [0, 0, 0]

/-- The bytes are signed, and their header is of revision 1. -/
structure Current (bytes : List UInt8) : Prop extends Signed bytes where
  /-- The revision is 1. -/
  revision : StoresAt bytes 8 1

/-- The bytes are of the current revision, and hold as many entries as their header counts. -/
structure Whole (bytes : List UInt8) (count : UInt32) : Prop extends Current bytes where
  /-- The header counts the entries. -/
  counted : StoresAt bytes 16 count
  /-- The last entry ends inside the bytes. -/
  inside : 24 + 72 * count.toNat ≤ bytes.length

/-- What there is to say of some bytes: the first check that they fail, or the view of them. -/
inductive Verdict (bytes : List UInt8) : Except LoadFault BlobView → Prop where
  | tooShort (short : bytes.length < 24) : Verdict bytes (.error .tooShort)
  | badSignature (long : 24 ≤ bytes.length)
      (unsigned : bytes.take 8 ≠ Utf8.bytes "odtr3" ++ [0, 0, 0]) :
      Verdict bytes (.error .badSignature)
  | unsupportedRevision {revision : UInt32} (signed : Signed bytes)
      (stored : StoresAt bytes 8 revision) (unknown : revision ≠ 1) :
      Verdict bytes (.error (.unsupportedRevision revision))
  | truncated {count : UInt32} (current : Current bytes) (counted : StoresAt bytes 16 count)
      (short : bytes.length < 24 + 72 * count.toNat) : Verdict bytes (.error (.truncated count))
  | nameListMismatch {count offset : UInt32} (whole : Whole bytes count)
      (stored : StoresAt bytes 20 offset) (apart : offset.toNat ≠ 24 + 72 * count.toNat) :
      Verdict bytes (.error (.nameListMismatch offset (24 + 72 * count.toNat)))
  | accepted {count offset flags : UInt32} (whole : Whole bytes count)
      (stored : StoresAt bytes 20 offset) (follows : offset.toNat = 24 + 72 * count.toNat)
      (flagged : StoresAt bytes 12 flags) :
      Verdict bytes (.ok { bytes := bytes, header := .current count offset flags })

/-- One place stores one number. -/
theorem StoresAt.unique (first : StoresAt bytes position number)
    (second : StoresAt bytes position other) : number = other := by
  have same := Option.some.inj (first.symm.trans second)
  exact UInt32.toNat_inj.mp ((LittleEndian.encode_inj number.toNat_lt other.toNat_lt).mp same)

/-! ## The header of some bytes -/

/-- The signature and the four numbers of a header are those that the bytes store. -/
structure Stored (bytes : List UInt8) (header : Header) : Prop where
  signature : header.signature = Header.currentSignature ↔
    bytes.take 8 = Utf8.bytes "odtr3" ++ [0, 0, 0]
  revision : StoresAt bytes 8 header.revision
  flags : StoresAt bytes 12 header.flags
  entriesCount : StoresAt bytes 16 header.entriesCount
  nameListOffset : StoresAt bytes 20 header.nameListOffset

/-- The bytes of a signature are the expected ones exactly when the word they are read as is. -/
theorem encode_signature_eq_iff (signature : UInt64) :
    LittleEndian.encode 8 signature.toNat = Utf8.bytes "odtr3" ++ [0, 0, 0] ↔
      signature = Header.currentSignature := by
  have expected : Utf8.bytes "odtr3" ++ [0, 0, 0] =
      LittleEndian.encode 8 Header.currentSignature.toNat := by decide
  rw [expected, LittleEndian.encode_inj signature.toNat_lt Header.currentSignature.toNat_lt,
    UInt64.toNat_inj]

/-- Bytes that are long enough store the numbers of the header that is read from them. -/
theorem stored_of_front {header : Header} (long : Header.size ≤ bytes.length)
    (front : (slice? bytes 0 Header.size).bind Header.decode = some header) :
    Stored bytes header := by
  have whole : (bytes.take Header.size).length = Header.size := by
    rw [List.length_take, Nat.min_eq_left long]
  rw [slice?_zero long, Option.bind_some] at front
  have places := Header.slice?_of_decode whole front
  simp only [Header.zip_values, List.forall_mem_cons] at places
  obtain ⟨signature, revision, flags, count, offset, _⟩ := places
  have within {start stop : Nat} (inside : stop ≤ Header.size) :
      slice? bytes start stop = slice? (bytes.take Header.size) start stop :=
    (slice?_take bytes start inside).symm
  constructor
  case signature =>
    have first : bytes.take 8 = LittleEndian.encode 8 header.signature.toNat := by
      have reached : 8 ≤ bytes.length := Nat.le_trans (by decide) long
      rw [← within (by decide)] at signature
      change slice? bytes 0 8 = _ at signature
      rw [slice?_zero reached] at signature
      exact Option.some.inj signature
    rw [first, encode_signature_eq_iff]
  case revision => exact (within (by decide)).trans revision
  case flags => exact (within (by decide)).trans flags
  case entriesCount => exact (within (by decide)).trans count
  case nameListOffset => exact (within (by decide)).trans offset

/-- Bytes that are long enough have a header, and store its numbers. -/
theorem exists_stored (long : 24 ≤ bytes.length) :
    ∃ header, (slice? bytes 0 Header.size).bind Header.decode = some header ∧
      Stored bytes header := by
  have reached : Header.size ≤ bytes.length := long
  obtain ⟨header, front⟩ := BlobView.exists_front reached
  exact ⟨header, front, stored_of_front long front⟩

/-- A header with the expected signature and revision is the current one for its other numbers. -/
theorem current_eq {header : Header} (signature : header.signature = Header.currentSignature)
    (revision : header.revision = Header.currentRevision) :
    .current header.entriesCount header.nameListOffset header.flags = header := by
  rw [Header.current, ← signature, ← revision]

/-! ## The verdict -/

/-- What parsing gives is a verdict on the bytes. -/
theorem verdict_parse (bytes : List UInt8) : Verdict bytes (BlobView.parse bytes) := by
  by_cases long : 24 ≤ bytes.length
  case neg =>
    have short : bytes.length < 24 := Nat.not_le.mp long
    rw [BlobView.parse_of_short short]
    exact .tooShort short
  obtain ⟨header, front, stored⟩ := exists_stored long
  rw [BlobView.parse_of_front front]
  dsimp only
  by_cases signature : header.signature = Header.currentSignature
  case neg =>
    rw [if_pos signature]
    exact .badSignature long (mt stored.signature.mpr signature)
  have signed : Signed bytes := ⟨long, stored.signature.mp signature⟩
  rw [if_neg (not_not.mpr signature)]
  by_cases revision : header.revision = Header.currentRevision
  case neg =>
    rw [if_pos revision]
    exact .unsupportedRevision signed stored.revision revision
  have current : Current bytes := ⟨signed, (revision ▸ stored.revision :)⟩
  rw [if_neg (not_not.mpr revision)]
  by_cases cut : bytes.length < Header.size + Entry.size * header.entriesCount.toNat
  case pos =>
    rw [if_pos cut]
    exact .truncated current stored.entriesCount cut
  have whole : Whole bytes header.entriesCount :=
    ⟨current, stored.entriesCount, Nat.not_lt.mp cut⟩
  rw [if_neg cut]
  by_cases follows : header.nameListOffset.toNat =
      Header.size + Entry.size * header.entriesCount.toNat
  case neg =>
    rw [if_pos follows]
    exact .nameListMismatch whole stored.nameListOffset follows
  rw [if_neg (not_not.mpr follows)]
  have accepted := Verdict.accepted whole stored.nameListOffset follows stored.flags
  rwa [current_eq signature revision] at accepted

/-- Bytes of the current revision have a header with the expected signature and revision. -/
theorem Current.exists_stored (current : Current bytes) :
    ∃ header, (slice? bytes 0 Header.size).bind Header.decode = some header ∧
      Stored bytes header ∧ header.signature = Header.currentSignature ∧
      header.revision = Header.currentRevision := by
  obtain ⟨header, front, stored⟩ := Format.exists_stored current.long
  exact ⟨header, front, stored, stored.signature.mpr current.signature,
    stored.revision.unique current.revision⟩

/-- A verdict on some bytes is what parsing them gives. -/
theorem Verdict.parse_eq {result : Except LoadFault BlobView} (verdict : Verdict bytes result) :
    BlobView.parse bytes = result := by
  cases verdict with
  | tooShort short => exact BlobView.parse_of_short short
  | badSignature long unsigned =>
    obtain ⟨header, front, stored⟩ := exists_stored long
    rw [BlobView.parse_of_front front]
    exact if_pos (mt stored.signature.mp unsigned)
  | unsupportedRevision signed revised unknown =>
    obtain ⟨header, front, stored⟩ := exists_stored signed.long
    obtain rfl := stored.revision.unique revised
    have signature := stored.signature.mpr signed.signature
    have revision : header.revision ≠ Header.currentRevision := unknown
    simp [BlobView.parse_of_front front, signature, revision]
  | truncated current counted short =>
    obtain ⟨header, front, stored, signature, revision⟩ := current.exists_stored
    obtain rfl := stored.entriesCount.unique counted
    simp [BlobView.parse_of_front front, signature, revision, Header.size, Entry.size, short]
  | nameListMismatch whole placed apart =>
    obtain ⟨header, front, stored, signature, revision⟩ := whole.exists_stored
    obtain rfl := stored.entriesCount.unique whole.counted
    obtain rfl := stored.nameListOffset.unique placed
    have reached := Nat.not_lt.mpr whole.inside
    simp [BlobView.parse_of_front front, signature, revision, Header.size, Entry.size, reached,
      apart]
  | accepted whole placed follows flagged =>
    obtain ⟨header, front, stored, signature, revision⟩ := whole.exists_stored
    obtain rfl := stored.entriesCount.unique whole.counted
    obtain rfl := stored.nameListOffset.unique placed
    obtain rfl := stored.flags.unique flagged
    have reached := Nat.not_lt.mpr whole.inside
    simp [BlobView.parse_of_front front, signature, revision, Header.size, Entry.size, reached,
      follows, current_eq signature revision]

end Format

open Format (Verdict verdict_parse)

/-- What parsing gives, for all bytes, is the verdict on them: the first of its checks that they
fail, in one order, or the view of them with the numbers of their header as stored. The name table
of a view is what follows the entries. No count of a header makes the place of the table overflow a
machine word. -/
theorem parse_precedence (bytes : List UInt8) :
    (∀ result, BlobView.parse bytes = result ↔ Verdict bytes result) ∧
    (∀ view, BlobView.parse bytes = .ok view →
      view.nameTable = bytes.drop (24 + 72 * view.size)) ∧
    ∀ count : UInt32, 24 + 72 * count.toNat < UInt64.size ∧
      Layout.nameListOffset? count.toNat = some (24 + 72 * count.toNat) := by
  refine ⟨?verdict, ?table, ?place⟩
  case verdict =>
    intro result
    constructor
    · rintro rfl
      exact verdict_parse bytes
    · exact Verdict.parse_eq
  case table =>
    intro view parsed
    obtain ⟨rfl, _, accepted⟩ := BlobView.parse_eq_ok_iff.mp parsed
    rw [accepted.nameTable_eq, accepted.position, Header.size, Entry.size]
  case place =>
    intro count
    have bound := count.toNat_lt_size
    refine ⟨?_, Layout.nameListOffset?_of_lt bound⟩
    simp only [UInt32.size, UInt64.size] at bound ⊢
    omega

/-- The 24 bytes of a header with these numbers, and two bytes after them. -/
def headerAlone (revision flags count offset : Nat) : List UInt8 :=
  Header.signatureBytes ++ LittleEndian.encode 4 revision ++ LittleEndian.encode 4 flags ++
    LittleEndian.encode 4 count ++ LittleEndian.encode 4 offset ++ [0x41, 0]

/-- An unknown revision is reported before the largest of all counts, and that count, whose entries
would end far past 32 bits, before the place of the name table. A header that counts no entries is
accepted with any flags, and the two bytes after it are the name table. -/
theorem parse_precedence_headerAlone :
    BlobView.parse (headerAlone 2 0 4294967295 0) = .error (.unsupportedRevision 2) ∧
    BlobView.parse (headerAlone 1 0 4294967295 0) = .error (.truncated 4294967295) ∧
    BlobView.parse (headerAlone 1 0 0 25) = .error (.nameListMismatch 25 24) ∧
    ∃ view, BlobView.parse (headerAlone 1 4294967295 0 24) = .ok view ∧
      view.header.flags = 4294967295 ∧ view.nameTable = [0x41, 0] := by
  obtain ⟨future, _, _⟩ := parse_precedence (headerAlone 2 0 4294967295 0)
  obtain ⟨largest, _, _⟩ := parse_precedence (headerAlone 1 0 4294967295 0)
  obtain ⟨moved, _, _⟩ := parse_precedence (headerAlone 1 0 0 25)
  obtain ⟨sound, table, _⟩ := parse_precedence (headerAlone 1 4294967295 0 24)
  have parsed : BlobView.parse (headerAlone 1 4294967295 0 24) =
      .ok { bytes := headerAlone 1 4294967295 0 24, header := .current 0 24 4294967295 } :=
    (sound _).mpr (.accepted ⟨⟨⟨by decide, by decide⟩, by decide⟩, by decide, by decide⟩
      (by decide) rfl (by decide))
  have empty : Format.Whole (headerAlone 1 0 0 25) 0 :=
    ⟨⟨⟨by decide, by decide⟩, by decide⟩, by decide, by decide⟩
  refine ⟨(future _).mpr (.unsupportedRevision ⟨by decide, by decide⟩ (by decide) (by decide)),
    (largest _).mpr (.truncated ⟨⟨by decide, by decide⟩, by decide⟩ (by decide) (by decide)),
    (moved _).mpr (.nameListMismatch empty (by decide) (by decide)), _, parsed, rfl,
    table _ parsed⟩

end BoardBlob
