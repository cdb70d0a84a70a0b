import KjAtlas.Foundation.CommonEnds
import KjAtlas.Foundation.Transactions
import KjAtlas.Py.Json

/-! # The generation codec

A generation is stored as the compressed text of its value, or as the difference
to the bytes of another generation: the lengths of their common ends and the
middle that is new. Compression, base64, digests and floating point numbers are
taken from a library.
-/

namespace KjAtlas.Generation

open Py (Bytes Json Floats dumps loadsBytes utf8)

/-- Why an operation raises. -/
inductive Raised where
  | generationCodecError (message : String)
  | invalidGenerationMetadata (message : String)
  | zlibError
deriving DecidableEq

/-- Why `gzip.decompress` raises. -/
inductive GzipError where
  | osError
  | zlibError
deriving DecidableEq

/-- What the codec takes from the standard library; `R` is the type of ratios. -/
structure Library (F R : Type) where
  floats : Floats F
  isZero : F → Bool
  decodeWide : Bytes → Option Js.Text
  compress : Bytes → Bytes
  decompress : Bytes → Except GzipError Bytes
  b64encode : Bytes → String
  b64decode : String → Option Bytes
  sha256 : Bytes → String
  /-- `0.7`. -/
  defaultRatio : R
  /-- `0 < ratio <= 1`. -/
  isRatio : R → Bool
  /-- `delta <= full * ratio`. -/
  withinRatio : Nat → Nat → R → Bool

variable {F R : Type} (lib : Library F R)

structure GenerationRetentionPolicy (R : Type) where
  ephemeralMaxPerBranch : Int
  ephemeralMaxAgeDays : Int
  deltaChainMaxDepth : Int
  fullSnapshotDeltaRatio : R

def defaultPolicy : GenerationRetentionPolicy R where
  ephemeralMaxPerBranch := 50
  ephemeralMaxAgeDays := 7
  deltaChainMaxDepth := 32
  fullSnapshotDeltaRatio := lib.defaultRatio

def GenerationRetentionPolicy.validate (policy : GenerationRetentionPolicy R) :
    Except Raised Unit := do
  ensure (¬ (policy.ephemeralMaxPerBranch < 1 ∨ policy.ephemeralMaxAgeDays < 1))
    (.invalidGenerationMetadata "ephemeral retention bounds must be positive")
  ensure (¬ policy.deltaChainMaxDepth < 1)
    (.invalidGenerationMetadata "delta chain depth must be positive")
  ensure (lib.isRatio policy.fullSnapshotDeltaRatio)
    (.invalidGenerationMetadata "snapshot delta ratio must be between zero and one")

/-! ## Encoding -/

inductive Representation where
  | gzipJson
  | gzipDelta
  | other (name : String)
deriving DecidableEq

structure EncodedGenerationBlob where
  contentDigest : String
  byteSize : Int
  storedBytes : Bytes
  representation : Representation
  baseDigest : Option String
  deltaDepth : Int
deriving DecidableEq

def canonicalJsonBytes (value : Json F) : Except Raised Bytes :=
  found (.generationCodecError "generation content is not canonical JSON")
    ((dumps lib.floats value).map utf8)

def deltaEnvelope (prefixLength suffixLength : Nat) (middle : Bytes) : Json F :=
  .dict [("v", .int 1), ("prefix", .int prefixLength), ("suffix", .int suffixLength),
    ("middle", .str (lib.b64encode middle))]

def commonEnds (base current : Bytes) : Nat × Nat :=
  let limit := min base.length current.length
  let prefixLength := countPrefix base current limit 0
  (prefixLength, countSuffix base current (limit - prefixLength) 0)

def delta (base current : Bytes) : Except Raised Bytes := do
  let (prefixLength, suffixLength) := commonEnds base current
  let middleEnd := current.length - suffixLength
  let middle := (current.take middleEnd).drop prefixLength
  let envelope ← canonicalJsonBytes lib (deltaEnvelope lib prefixLength suffixLength middle)
  return lib.compress envelope

/-- The base of a difference: its bytes and its digest, if the digest is true and the depth is
below the limit. -/
def usableBase (baseBytes : Option Bytes) (baseDigest : Option String) (baseDeltaDepth : Int)
    (policy : GenerationRetentionPolicy R) : Option (Bytes × String) := do
  let bytes ← baseBytes
  let digest ← baseDigest
  if lib.sha256 bytes = digest ∧ baseDeltaDepth < policy.deltaChainMaxDepth then
    some (bytes, digest)
  else none

def encodeGeneration (value : Json F) (baseBytes : Option Bytes) (baseDigest : Option String)
    (baseDeltaDepth : Int) (policy : Option (GenerationRetentionPolicy R)) :
    Except Raised EncodedGenerationBlob := do
  let policy := policy.getD (defaultPolicy lib)
  policy.validate lib
  let canonical ← canonicalJsonBytes lib value
  let digest := lib.sha256 canonical
  let full := lib.compress canonical
  let snapshot : EncodedGenerationBlob := {
    contentDigest := digest
    byteSize := canonical.length
    storedBytes := full
    representation := .gzipJson
    baseDigest := none
    deltaDepth := 0 }
  match usableBase lib baseBytes baseDigest baseDeltaDepth policy with
  | none => return snapshot
  | some (base, baseDigest) => do
      let delta ← delta lib base canonical
      if lib.withinRatio delta.length full.length policy.fullSnapshotDeltaRatio then
        return {
          contentDigest := digest
          byteSize := canonical.length
          storedBytes := delta
          representation := .gzipDelta
          baseDigest := some baseDigest
          deltaDepth := baseDeltaDepth + 1 }
      else return snapshot

/-! ## Restoring -/

/-- Python's `xs[:stop]`. -/
def sliceTo (xs : Bytes) : Option Int → Bytes
  | none => xs
  | some stop => xs.take (if stop < 0 then xs.length + stop else stop).toNat

/-- Python's `xs[start:]`. -/
def sliceFrom (xs : Bytes) (start : Int) : Bytes :=
  xs.drop (if start < 0 then xs.length + start else start).toNat

/-- A slice bound; other values raise a `TypeError`. -/
def sliceBound : Json F → Option (Option Int)
  | .null => some none
  | .int n => some (some n)
  | .bool b => some (some (if b then 1 else 0))
  | _ => none

/-- `bool(value)`. -/
def truthy : Json F → Bool
  | .null => false
  | .bool b => b
  | .int n => n ≠ 0
  | .float x => !lib.isZero x
  | .str s => s ≠ ""
  | .list items => !items.isEmpty
  | .dict members => !members.isEmpty

/-- The end that a suffix takes from the base; a suffix that is no number raises a
`TypeError`. -/
def baseEnd (base : Bytes) (suffix : Json F) : Option Bytes :=
  if truthy lib suffix then do
    let length ← match suffix with
      | .int n => some n
      | .bool b => some (if b then 1 else 0)
      | _ => none
    return sliceFrom base (base.length - length)
  else some []

/-- The bytes that an envelope describes; any error in it raises. -/
def applyEnvelope (base : Bytes) : Json F → Option Bytes
  | .dict members => do
      let start ← (members.lookup "prefix").bind sliceBound
      let suffix ← members.lookup "suffix"
      let encoded ← members.lookup "middle"
      let middle ← match encoded with
        | .str s => lib.b64decode s
        | _ => none
      let ending ← baseEnd lib base suffix
      return sliceTo base start ++ middle ++ ending
  | _ => none

def decompressed (blob : EncodedGenerationBlob) : Except Raised Bytes :=
  match lib.decompress blob.storedBytes with
  | .ok decoded => .ok decoded
  | .error .osError => .error (.generationCodecError "generation blob compression is invalid")
  | .error .zlibError => .error .zlibError

def restoreGeneration (blob : EncodedGenerationBlob) (baseBytes : Option Bytes) :
    Except Raised Bytes := do
  let decoded ← decompressed lib blob
  let restored ← match blob.representation with
    | .gzipJson => pure decoded
    | .gzipDelta => do
        let base ← found (.generationCodecError "generation delta base does not match")
          (baseBytes.filter fun base => blob.baseDigest = some (lib.sha256 base))
        found (.generationCodecError "generation delta is invalid")
          ((loadsBytes lib.decodeWide lib.floats decoded).bind (applyEnvelope lib base))
    | .other _ => .error (.generationCodecError "generation representation is unsupported")
  ensure (restored.length = blob.byteSize ∧ lib.sha256 restored = blob.contentDigest)
    (.generationCodecError "restored generation failed integrity verification")
  return restored

/-! ## Round trip -/

/-- The envelope as it is read back, with its members sorted. -/
def sortedEnvelope (prefixLength suffixLength : Nat) (middle : Bytes) : Json F :=
  .dict [("middle", .str (lib.b64encode middle)), ("prefix", .int prefixLength),
    ("suffix", .int suffixLength), ("v", .int 1)]

theorem dumps_deltaEnvelope (prefixLength suffixLength : Nat) (middle : Bytes) :
    dumps lib.floats (deltaEnvelope lib prefixLength suffixLength middle) =
      dumps lib.floats (sortedEnvelope lib prefixLength suffixLength middle) := by
  have hsort : ∀ a b c d : Js.Text,
      sortOn codePointLe Prod.fst [("v", a), ("prefix", b), ("suffix", c), ("middle", d)] =
        sortOn codePointLe Prod.fst [("middle", d), ("prefix", b), ("suffix", c), ("v", a)] := by
    intro a b c d
    simp [sortOn, codePointLe]
  simp [deltaEnvelope, sortedEnvelope, dumps, Py.dumpsMembers, hsort]

theorem canonical_sortedEnvelope (prefixLength suffixLength : Nat) (middle : Bytes) :
    Py.Canonical lib.floats (sortedEnvelope lib prefixLength suffixLength middle) := by
  have hsorted : ["middle", "prefix", "suffix", "v"].Pairwise (· < ·) := by decide
  refine .dict _ hsorted ?_
  intro member hmember
  simp only [List.mem_cons, List.not_mem_nil, or_false] at hmember
  rcases hmember with rfl | rfl | rfl | rfl
  · exact .str _
  · exact .int _
  · exact .int _
  · exact .int _

theorem canonicalJsonBytes_deltaEnvelope (prefixLength suffixLength : Nat) (middle : Bytes) :
    ∃ bytes, canonicalJsonBytes lib (deltaEnvelope lib prefixLength suffixLength middle) =
        .ok bytes ∧
      loadsBytes lib.decodeWide lib.floats bytes =
        some (sortedEnvelope lib prefixLength suffixLength middle) := by
  have hcanonical := canonical_sortedEnvelope lib prefixLength suffixLength middle
  obtain ⟨text, htext, -⟩ := hcanonical.reads
  have hstart : ∃ more, text = '{' :: '"' :: more := by
    simp only [sortedEnvelope, dumps, Py.dumpsMembers, Option.bind_eq_bind, Option.bind_some,
      Option.pure_def, Option.some.injEq] at htext
    rw [← htext]
    simp [sortOn, codePointLe, Js.commaJoin_cons, Py.memberText, Js.quote]
  obtain ⟨more, hmore⟩ := hstart
  refine ⟨utf8 text, ?_, ?_⟩
  · rw [canonicalJsonBytes, dumps_deltaEnvelope, htext]
    rfl
  · rw [Py.loadsBytes_utf8 _ _ hmore]
    exact Py.decode_dumps hcanonical htext

theorem commonEnds_spec (base current : Bytes) :
    base.take (commonEnds base current).1 = current.take (commonEnds base current).1 ∧
      base.drop (base.length - (commonEnds base current).2) =
        current.drop (current.length - (commonEnds base current).2) ∧
      (commonEnds base current).1 + (commonEnds base current).2 ≤
        min base.length current.length := by
  have hprefix := countPrefix_le base current (min base.length current.length) 0
  have hsuffix := countSuffix_le base current
    (min base.length current.length - (commonEnds base current).1) 0
  refine ⟨take_countPrefix (by simp), drop_countSuffix ?_ ?_ (by simp), ?_⟩
  · have hmin := Nat.min_le_left base.length current.length
    omega
  · have hmin := Nat.min_le_right base.length current.length
    omega
  · simp only [commonEnds] at hprefix hsuffix ⊢
    omega

theorem sliceTo_ofNat (xs : Bytes) (stop : Nat) : sliceTo xs (some (stop : Int)) = xs.take stop := by
  have hnonneg : ¬ ((stop : Int) < 0) := by omega
  rw [sliceTo, if_neg hnonneg, Int.toNat_natCast]

theorem baseEnd_ofNat {base : Bytes} {suffixLength : Nat} (hle : suffixLength ≤ base.length) :
    baseEnd lib base (.int suffixLength) = some (base.drop (base.length - suffixLength)) := by
  unfold baseEnd
  by_cases hzero : suffixLength = 0
  · subst hzero
    simp [truthy]
  · have htruthy : truthy lib (.int (suffixLength : Int)) = true := by simp [truthy, hzero]
    have hnonneg : ¬ ((base.length : Int) - suffixLength < 0) := by omega
    have hstart : ((base.length : Int) - suffixLength).toNat = base.length - suffixLength := by
      omega
    have hslice : sliceFrom base (base.length - suffixLength) =
        base.drop (base.length - suffixLength) := by
      unfold sliceFrom
      rw [if_neg hnonneg, hstart]
    rw [if_pos htruthy]
    exact congrArg some hslice

/-- The assumed behaviour of the library: the encoders are inverted by their decoders. -/
structure Library.Inverts : Prop where
  gzip : ∀ bytes, lib.decompress (lib.compress bytes) = .ok bytes
  base64 : ∀ bytes, lib.b64decode (lib.b64encode bytes) = some bytes

variable {lib}

theorem delta_spec (hlib : lib.Inverts) (base current : Bytes) :
    ∃ bytes decoded envelope, delta lib base current = .ok bytes ∧
      lib.decompress bytes = .ok decoded ∧
      loadsBytes lib.decodeWide lib.floats decoded = some envelope ∧
      applyEnvelope lib base envelope = some current := by
  obtain ⟨hstart, hend, hlength⟩ := commonEnds_spec base current
  generalize hends : commonEnds base current = ends at hstart hend hlength
  obtain ⟨prefixLength, suffixLength⟩ := ends
  dsimp only at hstart hend hlength
  obtain ⟨decoded, hbytes, hloads⟩ := canonicalJsonBytes_deltaEnvelope lib prefixLength
    suffixLength ((current.take (current.length - suffixLength)).drop prefixLength)
  refine ⟨lib.compress decoded, decoded, _, ?_, hlib.gzip decoded, hloads, ?_⟩
  · simp only [delta, hends, hbytes]
    rfl
  · have hle : suffixLength ≤ base.length := by
      have hmin := Nat.min_le_left base.length current.length
      omega
    have hspliced := splice_eq hstart hend (by
      have hmin := Nat.min_le_right base.length current.length
      omega)
    rw [List.append_assoc] at hspliced
    simp [sortedEnvelope, applyEnvelope, List.lookup_cons, sliceBound, hlib.base64,
      baseEnd_ofNat lib hle, sliceTo_ofNat, hspliced]

theorem usableBase_eq_some {baseBytes : Option Bytes} {baseDigest : Option String} {depth : Int}
    {policy : GenerationRetentionPolicy R} {base : Bytes} {digest : String}
    (hbase : usableBase lib baseBytes baseDigest depth policy = some (base, digest)) :
    baseBytes = some base ∧ digest = lib.sha256 base ∧ depth < policy.deltaChainMaxDepth := by
  simp only [usableBase, Option.bind_eq_bind, Option.bind_eq_some_iff,
    Option.ite_none_right_eq_some, Option.some.injEq, Prod.mk.injEq] at hbase
  obtain ⟨_, hbytes, _, -, ⟨hdigest, hdepth⟩, rfl, rfl⟩ := hbase
  exact ⟨hbytes, hdigest.symm, hdepth⟩

/-- A generation is restored from its encoding and the base it was encoded with; a difference is
stored only within the ratio, and within the depth. -/
theorem restore_encode (hlib : lib.Inverts) (value : Json F)
    (hvalue : Py.Finite lib.floats value) (baseBytes : Option Bytes)
    (baseDigest : Option String) (baseDeltaDepth : Int)
    (policy : Option (GenerationRetentionPolicy R))
    (hpolicy : (policy.getD (defaultPolicy lib)).validate lib = .ok ()) :
    ∃ canonical blob, canonicalJsonBytes lib value = .ok canonical ∧
      encodeGeneration lib value baseBytes baseDigest baseDeltaDepth policy = .ok blob ∧
      restoreGeneration lib blob baseBytes = .ok canonical ∧
      blob.deltaDepth ≤ (policy.getD (defaultPolicy lib)).deltaChainMaxDepth ∧
      (blob.representation = .gzipDelta →
        lib.withinRatio blob.storedBytes.length (lib.compress canonical).length
          (policy.getD (defaultPolicy lib)).fullSnapshotDeltaRatio = true) := by
  obtain ⟨text, htext⟩ := hvalue.dumps
  obtain ⟨canonical, hcanonical⟩ : ∃ bytes, canonicalJsonBytes lib value = .ok bytes :=
    ⟨utf8 text, by rw [canonicalJsonBytes, htext]; rfl⟩
  generalize hbounds : policy.getD (defaultPolicy lib) = bounds at hpolicy
  have hdepth : 0 ≤ bounds.deltaChainMaxDepth := by
    simp only [GenerationRetentionPolicy.validate, bind_eq_ok, ensure_eq_ok] at hpolicy
    obtain ⟨-, -, -, hdepth, -⟩ := hpolicy
    omega
  have hsnapshot : restoreGeneration lib {
      contentDigest := lib.sha256 canonical
      byteSize := canonical.length
      storedBytes := lib.compress canonical
      representation := .gzipJson
      baseDigest := none
      deltaDepth := 0 } baseBytes = .ok canonical := by
    simp [restoreGeneration, decompressed, hlib.gzip, ensure, bind, Except.bind, pure, Except.pure]
  simp only [encodeGeneration, hbounds, hpolicy, hcanonical, bind, Except.bind]
  cases hbase : usableBase lib baseBytes baseDigest baseDeltaDepth bounds with
  | none => exact ⟨canonical, _, rfl, rfl, hsnapshot, hdepth, fun hdelta => by cases hdelta⟩
  | some pair =>
      obtain ⟨base, digest⟩ := pair
      obtain ⟨rfl, rfl, hbelow⟩ := usableBase_eq_some hbase
      obtain ⟨bytes, decoded, envelope, hdelta, hdecoded, henvelope, hrestored⟩ :=
        delta_spec hlib base canonical
      simp only [hdelta]
      split
      next hratio =>
        refine ⟨canonical, _, rfl, rfl, ?_, by simp; omega, fun _ => hratio⟩
        simp [restoreGeneration, decompressed, hdecoded, henvelope, hrestored, Option.filter, found,
          ensure, bind, Except.bind, pure, Except.pure]
      next => exact ⟨canonical, _, rfl, rfl, hsnapshot, hdepth, fun hdelta => by cases hdelta⟩

/-! ## A small library -/

namespace SmallLibrary

/-- The bytes of `"a"` and of `"b"`. -/
def a : Bytes := [34, 97, 34]

@[inherit_doc a]
def b : Bytes := [34, 98, 34]

/-- The envelope of the difference from `"a"` to `"b"`. -/
def envelope : Bytes := utf8 "\x7b\"middle\":\"Yg==\",\"prefix\":1,\"suffix\":1,\"v\":1\x7d".toList

def compressedB : Bytes :=
  [31, 139, 8, 0, 0, 0, 0, 0, 0, 3, 83, 74, 82, 2, 0, 93, 3, 35, 70, 3, 0, 0, 0]

def compressedEnvelope : Bytes :=
  [31, 139, 8, 0, 0, 0, 0, 0, 0, 3, 171, 86, 202, 205, 76, 73, 201, 73, 85, 178, 82, 138, 76, 183,
    181, 85, 210, 81, 42, 40, 74, 77, 203, 172, 80, 178, 50, 212, 81, 42, 46, 77, 131, 49, 203,
    128, 100, 45, 0, 236, 65, 124, 243, 45, 0, 0, 0]

/-- A library that knows these bytes and marks all others. -/
def library : Library Unit Rat where
  floats := { repr := fun _ => none, ofText := fun _ => () }
  isZero _ := false
  decodeWide _ := none
  compress bytes :=
    if bytes = b then compressedB
    else if bytes = envelope then compressedEnvelope
    else 0 :: bytes
  decompress bytes :=
    if bytes = compressedB then .ok b
    else if bytes = compressedEnvelope then .ok envelope
    else match bytes with
      | 0 :: bytes => .ok bytes
      | _ => .error .osError
  b64encode bytes :=
    if bytes = [98] then "Yg==" else .ofList ('!' :: bytes.map fun byte => Char.ofNat byte.toNat)
  b64decode text :=
    if text = "Yg==" then some [98]
    else match text.toList with
      | '!' :: chars => some (chars.map fun c => UInt8.ofNat c.toNat)
      | _ => none
  sha256 bytes :=
    if bytes = b then "c100f95c1913f9c72fc1f4ef0847e1e723ffe0bde0b36e5f36c13f81fe8c26ed"
    else "ac8d8342bbb2362d13f0a559a3621bb407011368895164b628a54f7fc33fc43c"
  defaultRatio := 7 / 10
  isRatio ratio := 0 < ratio ∧ ratio ≤ 1
  withinRatio delta full ratio := (delta : Rat) ≤ full * ratio

theorem library_inverts : library.Inverts where
  gzip bytes := by
    by_cases hb : bytes = b
    · subst hb
      rfl
    · by_cases henvelope : bytes = envelope
      · subst henvelope
        decide +kernel
      · simp [library, hb, henvelope, compressedB, compressedEnvelope]
  base64 bytes := by
    by_cases hb : bytes = [98]
    · subst hb
      rfl
    · have htext : String.ofList ('!' :: bytes.map fun byte => Char.ofNat byte.toNat) ≠ "Yg==" := by
        intro heq
        have hlist := congrArg String.toList heq
        rw [String.toList_ofList] at hlist
        nomatch (List.cons.inj hlist).1
      have hbyte : ∀ byte : UInt8, UInt8.ofNat (Char.ofNat byte.toNat).toNat = byte := by
        intro byte
        have hsmall : byte.toNat < 0xD800 := by
          have hbound := byte.toNat_lt
          omega
        rw [Char.ofNat, dif_pos (Or.inl hsmall)]
        exact UInt8.ofNat_toNat
      have hencode : library.b64encode bytes =
          .ofList ('!' :: bytes.map fun byte => Char.ofNat byte.toNat) := if_neg hb
      have hmap : (bytes.map fun byte => Char.ofNat byte.toNat).map
          (fun c => UInt8.ofNat c.toNat) = bytes := by
        rw [List.map_map]
        exact (List.map_congr_left fun byte _ => hbyte byte).trans bytes.map_id
      rw [hencode]
      refine (if_neg htext).trans ?_
      rw [String.toList_ofList]
      exact congrArg some hmap

/-- `"b"` is restored from its encoding with base `"a"`. -/
theorem restore_b : ∃ canonical blob,
    canonicalJsonBytes library (.str "b") = .ok canonical ∧
      encodeGeneration library (.str "b") (some a) (some (library.sha256 a)) 0 none = .ok blob ∧
      restoreGeneration library blob (some a) = .ok canonical ∧ blob.deltaDepth ≤ 32 ∧
      (blob.representation = .gzipDelta →
        library.withinRatio blob.storedBytes.length (library.compress canonical).length (7 / 10) =
          true) :=
  restore_encode library_inverts (.str "b") (.str "b") (some a) (some (library.sha256 a)) 0 none
    (by decide +kernel)

end SmallLibrary

end KjAtlas.Generation
