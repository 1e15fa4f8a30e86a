import Rustee.RustBytes

/-!
# What `ree-fs` puts on the REE's disk: paths, object files, the directory

An object file is a fixed 128-byte header, the ciphertext and its tag; the directory is a nonce, a
ciphertext with its tag, and an HMAC. Its plaintext keeps the metadata of the objects and the
pairs of file id and version in one list of entries, the program in two parallel vectors.
-/

namespace Rustee.Storage

open Fallible List Block

abbrev Bytes := List UInt8

/-- `[u8; 16]`: the uuid of a trusted application -/
abbrev TaId := Block 16

/-- `[u8; 16]`: the random name of an object file -/
abbrev FileId := Block 16

abbrev Path := List UInt8

def MAX_OBJECT : Nat := 1024 * 1024

inductive StorageError where
  | corrupt
  | notFound
  | tooBig
  | crypto
  | fs
deriving Repr, DecidableEq

structure ObjectMeta where
  objectId : Bytes
  flags : UInt32
  dataSize : UInt64
deriving Repr, DecidableEq

/-- `([u8; 16], u64)`: file id and object version -/
abbrev FileRef := FileId × UInt64

structure ObjectHandle where
  ta : TaId
  fileId : FileId
  objectId : Bytes
  flags : UInt32
  data : Bytes
  objVersion : UInt64
deriving Repr, DecidableEq

/-! ### Paths -/

def hexDigit (n : UInt8) : UInt8 := (ascii "0123456789abcdef").getD n.toNat 0

def hexPair (x : UInt8) : Path := [hexDigit (x >>> 4), hexDigit (x &&& 0xf)]

def hex32 (b : Block 16) : Path := b.bytes.flatMap hexPair

def taHex (ta : TaId) : Path := hex32 ta

def dirPath (ta : TaId) : Path := taHex ta ++ ascii "/dir.v1"

def objPath (ta : TaId) (fileId : FileId) : Path := taHex ta ++ ascii "/obj/" ++ hex32 fileId

def hexValue (d : UInt8) : Nat := (ascii "0123456789abcdef").idxOf d

theorem hexPair_injective {x y : UInt8} (h : hexPair x = hexPair y) : x = y := by
  have hvalue : ∀ a : Fin 256, 16 * hexValue (hexDigit (UInt8.ofNat a >>> 4)) +
      hexValue (hexDigit (UInt8.ofNat a &&& 0xf)) = a := by
    decide +kernel
  have hx := hvalue ⟨x.toNat, x.toNat_lt⟩
  have hy := hvalue ⟨y.toNat, y.toNat_lt⟩
  simp only [UInt8.ofNat_toNat] at hx hy
  obtain ⟨hhigh, hlow⟩ := cons.inj h
  rw [hhigh, (cons.inj hlow).1] at hx
  exact UInt8.toNat_inj.mp (hx.symm.trans hy)

theorem length_flatMap_hexPair (l : List UInt8) : (l.flatMap hexPair).length = 2 * l.length := by
  induction l with
  | nil => rfl
  | cons x l ih =>
    simp only [flatMap_cons, length_append, ih, length_cons]
    simp only [hexPair, length_cons, length_nil]
    omega

@[simp] theorem length_hex32 (b : Block 16) : (hex32 b).length = 32 := by
  rw [hex32, length_flatMap_hexPair, b.length_bytes]

theorem flatMap_hexPair_injective {l l' : List UInt8}
    (h : l.flatMap hexPair = l'.flatMap hexPair) : l = l' := by
  induction l generalizing l' with
  | nil =>
    cases l' with
    | nil => rfl
    | cons => simp [hexPair] at h
  | cons x l ih =>
    cases l' with
    | nil => simp [hexPair] at h
    | cons =>
      rw [flatMap_cons, flatMap_cons] at h
      obtain ⟨hhead, htail⟩ := append_inj h rfl
      rw [hexPair_injective hhead, ih htail]

theorem hex32_injective {a b : Block 16} (h : hex32 a = hex32 b) : a = b :=
  eq_of_bytes (flatMap_hexPair_injective h)

theorem objPath_injective {ta : TaId} {f g : FileId} (h : objPath ta f = objPath ta g) : f = g :=
  hex32_injective (append_cancel_left h)

theorem objPath_ne_dirPath (ta ta' : TaId) (f : FileId) : objPath ta f ≠ dirPath ta' := by
  intro h
  have hlen := congrArg length h
  simp [objPath, dirPath, taHex, ascii] at hlen

/-! ### Object files -/

/-- `"RSTO" ‖ 1 ‖ ta ‖ file_id ‖ obj_version`, the associated data of the wrapped key. -/
def objectAad (ta : TaId) (fileId : FileId) (objVersion : UInt64) : Bytes :=
  ascii "RSTO" ++ (1 :: (ta.bytes ++ (fileId.bytes ++ leBytes 8 objVersion.toNat)))

def bodyAad (aad : Bytes) (ptLen : Nat) : Bytes := aad ++ leBytes 8 ptLen

/-- `oid_len ‖ oid ‖ data` -/
def objectPlaintext (objectId data : Bytes) : Bytes :=
  UInt8.ofNat objectId.length :: (objectId ++ data)

def splitPlaintext : Bytes → Option (Bytes × Bytes)
  | [] => none
  | oidLen :: rest =>
    if rest.length < oidLen.toNat then none
    else some (rest.take oidLen.toNat, rest.drop oidLen.toNat)

/-- What `decrypt_object` takes out of an object file. -/
structure ObjectParts where
  wrapNonce : Block 12
  bodyNonce : Block 12
  wrapped : Bytes
  wrapTag : Block 16
  ptLen : UInt64
  ct : Bytes
  bodyTag : Block 16
deriving Repr, DecidableEq

section
variable (ta : TaId) (fileId : FileId) (objVersion : UInt64)

/-- The first 48 bytes: magic, version, flags, reserved, and what the object is. -/
def objectPreamble : Bytes :=
  ascii "RSTO" ++ [1, 0] ++ leBytes 2 0 ++ fileId.bytes ++ ta.bytes ++ leBytes 8 objVersion.toNat

def objectBlob (x : ObjectParts) : Bytes :=
  objectPreamble ta fileId objVersion ++ (x.wrapNonce.bytes ++ (x.bodyNonce.bytes ++ (x.wrapped ++
    (x.wrapTag.bytes ++ (leBytes 8 x.ptLen.toNat ++ (x.ct ++ x.bodyTag.bytes))))))

end

/-- The bounds checks and slices of `decrypt_object`. The header's own copies of the
version, the file id and the uuid are not looked at. -/
def splitBlob (build : Build) (blob : Bytes) : Fallible StorageError ObjectParts :=
  if blob.length < 128 ∨ blob.take 4 ≠ ascii "RSTO" then .err .corrupt
  else do
    let wrapNonce ← arrayAt blob 48 12
    let bodyNonce ← arrayAt blob 60 12
    let wrapped ← slice blob 72 104
    let wrapTag ← arrayAt blob 104 16
    let ptLen := UInt64.ofNat (leNat ((blob.drop 120).take 8))
    let bodyEnd ← usizeAdd build 128 ptLen
    let tagEnd ← usizeAdd build bodyEnd 16
    if blob.length < tagEnd.toNat then .err .corrupt
    else
      let ct ← slice blob 128 bodyEnd
      let tag ← slice blob bodyEnd tagEnd
      let bodyTag ← arrayAt tag 0 16
      pure ⟨wrapNonce, bodyNonce, wrapped, wrapTag, ptLen, ct, bodyTag⟩

variable {blob : Bytes} (build : Build)

/-- Behind the checks the header is read, and the bounds of the body are added up. -/
theorem splitBlob_header (hlen : 128 ≤ blob.length) (hmagic : blob.take 4 = ascii "RSTO") :
    ∃ wrapNonce bodyNonce wrapTag, wrapNonce.bytes = (blob.drop 48).take 12 ∧
      bodyNonce.bytes = (blob.drop 60).take 12 ∧ wrapTag.bytes = (blob.drop 104).take 16 ∧
      splitBlob build blob = (do
        let bodyEnd ← usizeAdd build (UInt64.ofNat 128) (UInt64.ofNat (leAt blob 120 8))
        let tagEnd ← usizeAdd build bodyEnd (UInt64.ofNat 16)
        if blob.length < tagEnd.toNat then .err .corrupt
        else
          let ct ← slice blob 128 bodyEnd
          let tag ← slice blob bodyEnd tagEnd
          let bodyTag ← arrayAt tag 0 16
          pure ⟨wrapNonce, bodyNonce, (blob.drop 72).take 32, wrapTag,
            UInt64.ofNat (leAt blob 120 8), ct, bodyTag⟩) := by
  have h104 : (104 : UInt64).toNat = 104 := rfl
  obtain ⟨wrapNonce, hwn, hwnBytes⟩ :
      ∃ b, (arrayAt blob 48 12 : Fallible StorageError _) = .ok b ∧ _ := arrayAt_of_le (by omega)
  obtain ⟨bodyNonce, hbn, hbnBytes⟩ :
      ∃ b, (arrayAt blob 60 12 : Fallible StorageError _) = .ok b ∧ _ := arrayAt_of_le (by omega)
  obtain ⟨wrapTag, hwt, hwtBytes⟩ :
      ∃ b, (arrayAt blob 104 16 : Fallible StorageError _) = .ok b ∧ _ := arrayAt_of_le (by omega)
  refine ⟨wrapNonce, bodyNonce, wrapTag, hwnBytes, hbnBytes, hwtBytes, ?_⟩
  rw [splitBlob, if_neg (by simp [hmagic]; omega), hwn, hbn,
    slice_eq_drop_take (by decide) (by omega), hwt]
  rfl

/-- The parts of an object file whose end fits 64 bits. -/
theorem splitBlob_of_fits (hlen : 128 ≤ blob.length)
    (hmagic : blob.take 4 = ascii "RSTO") (hfits : 144 + leAt blob 120 8 < 2 ^ 64) :
    blob.length < 144 + leAt blob 120 8 ∧ splitBlob build blob = .err .corrupt ∨
      ∃ x, splitBlob build blob = .ok x ∧ x.wrapNonce.bytes = (blob.drop 48).take 12 ∧
        x.bodyNonce.bytes = (blob.drop 60).take 12 ∧ x.wrapped = (blob.drop 72).take 32 ∧
        x.wrapTag.bytes = (blob.drop 104).take 16 ∧ x.ptLen = UInt64.ofNat (leAt blob 120 8) ∧
        x.ct = (blob.drop 128).take (leAt blob 120 8) ∧
        x.bodyTag.bytes = (blob.drop (128 + leAt blob 120 8)).take 16 := by
  have hbody : (UInt64.ofNat (128 + leAt blob 120 8)).toNat = 128 + leAt blob 120 8 :=
    toNat_ofNat_of_lt (by omega)
  have htag : (UInt64.ofNat (128 + leAt blob 120 8 + 16)).toNat = 128 + leAt blob 120 8 + 16 :=
    toNat_ofNat_of_lt (by omega)
  have h128 : (128 : UInt64).toNat = 128 := rfl
  obtain ⟨wrapNonce, bodyNonce, wrapTag, hwn, hbn, hwt, hsplit⟩ :=
    splitBlob_header build hlen hmagic
  rw [hsplit, usizeAdd_ofNat build (by omega), ok_bind, usizeAdd_ofNat build (by omega), ok_bind,
    htag]
  by_cases hshort : blob.length < 128 + leAt blob 120 8 + 16
  · exact .inl ⟨by omega, if_pos hshort⟩
  · obtain ⟨bodyTag, hbt, hbtBytes⟩ : ∃ b,
        (arrayAt ((blob.drop (128 + leAt blob 120 8)).take 16) 0 16 : Fallible StorageError _) =
          .ok b ∧ _ := arrayAt_of_le (by simp; omega)
    rw [if_neg hshort, slice_eq_drop_take (by omega) (by omega), ok_bind,
      slice_eq_drop_take (by omega) (by omega), ok_bind, hbody, htag, h128,
      Nat.add_sub_cancel_left, Nat.add_sub_cancel_left, hbt, ok_bind]
    exact .inr ⟨_, rfl, hwn, hbn, rfl, hwt, rfl, rfl, by
      rw [hbtBytes, drop_zero, take_take, Nat.min_self]⟩

/-- The parts of an object file have the lengths the header says, and the end of the
file was computed without wrapping. -/
theorem splitBlob_eq_ok {build : Build} {x : ObjectParts} (h : splitBlob build blob = .ok x) :
    x.wrapped.length = 32 ∧ x.ct.length = x.ptLen.toNat ∧ 144 + x.ptLen.toNat < 2 ^ 64 ∧
      x.ptLen.toNat ≤ blob.length := by
  rw [splitBlob] at h
  split at h
  · cases h
  · obtain ⟨wrapNonce, -, h⟩ := bind_eq_ok.mp h
    obtain ⟨bodyNonce, -, h⟩ := bind_eq_ok.mp h
    obtain ⟨wrapped, hwrapped, h⟩ := bind_eq_ok.mp h
    obtain ⟨wrapTag, -, h⟩ := bind_eq_ok.mp h
    simp only at h
    obtain ⟨bodyEnd, hbodyEnd, h⟩ := bind_eq_ok.mp h
    obtain ⟨tagEnd, htagEnd, h⟩ := bind_eq_ok.mp h
    split at h
    · cases h
    · obtain ⟨ct, hct, h⟩ := bind_eq_ok.mp h
      obtain ⟨tag, htag, h⟩ := bind_eq_ok.mp h
      obtain ⟨bodyTag, -, h⟩ := bind_eq_ok.mp h
      cases h
      have hbody := usizeAdd_eq_ok hbodyEnd
      have hend := usizeAdd_eq_ok htagEnd
      obtain ⟨-, -, hwlen⟩ := slice_eq_ok hwrapped
      obtain ⟨hlow, hhigh, hctLen⟩ := slice_eq_ok hct
      obtain ⟨hup, -, -⟩ := slice_eq_ok htag
      have h128 : (128 : UInt64).toNat = 128 := rfl
      have h16 : (16 : UInt64).toNat = 16 := rfl
      have hfit := (UInt64.ofNat (leNat ((blob.drop 120).take 8))).toNat_lt
      rw [h128] at hbody hlow hctLen
      rw [h16] at hend
      refine ⟨hwlen, ?_, ?_, ?_⟩
      · simp only
        omega
      · simp only
        omega
      · simp only
        omega

theorem ofNat_leNat_leBytes (v : UInt64) : UInt64.ofNat (leNat (leBytes 8 v.toNat)) = v := by
  rw [leNat_leBytes 8 v.toNat_lt]
  exact UInt64.ofNat_toNat

theorem ofNat_leNat_leBytes32 (v : UInt32) : UInt32.ofNat (leNat (leBytes 4 v.toNat)) = v := by
  rw [leNat_leBytes 4 v.toNat_lt]
  exact UInt32.ofNat_toNat

theorem objectAad_injective {ta ta' : TaId} {f f' : FileId} {v v' : UInt64}
    (h : objectAad ta f v = objectAad ta' f' v') : ta = ta' ∧ f = f' ∧ v = v' := by
  have hrest := (cons.inj (append_cancel_left h)).2
  obtain ⟨hta, hrest⟩ := append_inj hrest (by simp)
  obtain ⟨hf, hv⟩ := append_inj hrest (by simp)
  refine ⟨eq_of_bytes hta, eq_of_bytes hf, ?_⟩
  rw [← ofNat_leNat_leBytes v, ← ofNat_leNat_leBytes v', hv]

theorem splitPlaintext_objectPlaintext {objectId : Bytes} (data : Bytes)
    (h : objectId.length ≤ 255) :
    splitPlaintext (objectPlaintext objectId data) = some (objectId, data) := by
  have hlen : (UInt8.ofNat objectId.length).toNat = objectId.length := by
    rw [UInt8.toNat_ofNat']
    omega
  simp [splitPlaintext, objectPlaintext, hlen]

theorem splitPlaintext_eq_some {pt objectId data : Bytes}
    (h : splitPlaintext pt = some (objectId, data)) :
    objectId.length ≤ 255 ∧ pt.length = 1 + objectId.length + data.length := by
  cases pt with
  | nil => cases h
  | cons oidLen =>
    rw [splitPlaintext] at h
    split at h
    · cases h
    · cases h
      have hbyte := oidLen.toNat_lt
      simp only [length_take, length_drop, length_cons]
      omega

theorem length_objectPlaintext (objectId data : Bytes) :
    (objectPlaintext objectId data).length = 1 + objectId.length + data.length := by
  simp [objectPlaintext]
  omega

@[simp] theorem length_objectPreamble (ta : TaId) (fileId : FileId) (objVersion : UInt64) :
    (objectPreamble ta fileId objVersion).length = 48 := by
  simp [objectPreamble, ascii]

section ObjectBlob

variable {ta : TaId} {fileId : FileId} {objVersion : UInt64} {x : ObjectParts}

theorem take_objectBlob : (objectBlob ta fileId objVersion x).take 4 = ascii "RSTO" := by
  simp [objectBlob, objectPreamble, ascii]

/-- The header ends with the length of the body; the body and its tag are the rest. -/
theorem drop_objectBlob (hwrapped : x.wrapped.length = 32) :
    (objectBlob ta fileId objVersion x).drop 120 =
      leBytes 8 x.ptLen.toNat ++ (x.ct ++ x.bodyTag.bytes) := by
  simp [objectBlob, drop_append, drop_eq_nil_of_le, hwrapped]

theorem splitBlob_objectBlob (hwrapped : x.wrapped.length = 32)
    (hct : x.ct.length = x.ptLen.toNat) (hsmall : 144 + x.ptLen.toNat < 2 ^ 64) :
    splitBlob build (objectBlob ta fileId objVersion x) = .ok x := by
  have hlen : (objectBlob ta fileId objVersion x).length = 144 + x.ptLen.toNat := by
    simp [objectBlob, hwrapped, hct]
    omega
  have hpt : leAt (objectBlob ta fileId objVersion x) 120 8 = x.ptLen.toNat := by
    rw [leAt, drop_objectBlob hwrapped, take_left' (by simp), leNat_leBytes 8 x.ptLen.toNat_lt]
  rcases splitBlob_of_fits build (by omega) take_objectBlob (hpt ▸ hsmall) with
    ⟨hshort, -⟩ | ⟨y, hy, hwn, hbn, hw, hwt, hptLen, hyct, hbt⟩
  · omega
  · rw [hpt] at hptLen hyct hbt
    have hskip : (objectBlob ta fileId objVersion x).drop 128 = x.ct ++ x.bodyTag.bytes := by
      rw [show 128 = 120 + 8 from rfl, ← drop_drop, drop_objectBlob hwrapped, drop_left' (by simp)]
    rw [hskip, take_left' hct] at hyct
    rw [← drop_drop, hskip, drop_left' hct, take_of_length_le (by simp)] at hbt
    have hnonces : (objectBlob ta fileId objVersion x).drop 48 = x.wrapNonce.bytes ++
        (x.bodyNonce.bytes ++ (x.wrapped ++ (x.wrapTag.bytes ++
          (leBytes 8 x.ptLen.toNat ++ (x.ct ++ x.bodyTag.bytes))))) := drop_left' (by simp)
    rw [show 60 = 48 + 12 from rfl, ← drop_drop] at hbn
    rw [show 72 = 48 + (12 + 12) from rfl, ← drop_drop, ← drop_drop] at hw
    rw [show 104 = 48 + (12 + (12 + 32)) from rfl, ← drop_drop, ← drop_drop, ← drop_drop] at hwt
    simp only [hnonces, drop_left' x.wrapNonce.length_bytes, drop_left' x.bodyNonce.length_bytes,
      drop_left' hwrapped, take_left' x.wrapNonce.length_bytes, take_left' x.bodyNonce.length_bytes,
      take_left' hwrapped, take_left' x.wrapTag.length_bytes] at hwn hbn hw hwt
    rw [hy]
    cases y
    cases x
    rw [Fallible.ok.injEq, ObjectParts.mk.injEq]
    exact ⟨eq_of_bytes hwn, eq_of_bytes hbn, hw, eq_of_bytes hwt,
      hptLen.trans UInt64.ofNat_toNat, hyct, eq_of_bytes hbt⟩

end ObjectBlob

/-! ### The directory -/

/-- `b"RSTE-dir-v1" ‖ ta` -/
def dirAad (ta : TaId) : Bytes := ascii "RSTE-dir-v1" ++ ta.bytes

def encodeEntry (e : ObjectMeta × FileRef) : Bytes :=
  e.2.1.bytes ++ (UInt8.ofNat e.1.objectId.length :: (e.1.objectId ++
    (leBytes 4 e.1.flags.toNat ++ (leBytes 8 e.1.dataSize.toNat ++ leBytes 8 e.2.2.toNat))))

/-- The entries as they are written: the two vectors paired by position, a missing
pair replaced by `([0u8; 16], 1)`. -/
def listing (entries : List ObjectMeta) (files : List FileRef) : List (ObjectMeta × FileRef) :=
  entries.zipIdx.map fun (e, i) => (e, files.getD i (zero 16, 1))

def encodeDir (l : List (ObjectMeta × FileRef)) : Bytes :=
  ascii "RSTD" ++ ([1, 0, 0, 0] ++ (leBytes 8 1 ++ (leBytes 4 l.length ++ l.flatMap encodeEntry)))

/-- One round of the loop of `parse_dir`; `rest` is the plaintext from `off` on. -/
def parseEntry (rest : Bytes) : Fallible StorageError ((ObjectMeta × FileRef) × Bytes) :=
  if rest.length < 16 + 1 then .err .corrupt
  else do
    let fid ← arrayAt rest 0 16
    match rest.drop 16 with
    | [] => .panic
    | oidLen :: rest =>
      let n := oidLen.toNat
      if rest.length < n + 4 + 8 + 8 then .err .corrupt
      else
        let flags := UInt32.ofNat (leNat ((rest.drop n).take 4))
        let dataSize := UInt64.ofNat (leNat ((rest.drop (n + 4)).take 8))
        let ver := UInt64.ofNat (leNat ((rest.drop (n + 12)).take 8))
        pure ((⟨rest.take n, flags, dataSize⟩, (fid, ver)), rest.drop (n + 20))

def parseEntries : Nat → Bytes → Fallible StorageError (List ObjectMeta × List FileRef)
  | 0, _ => .ok ([], [])
  | count + 1, rest => do
    let ((e, f), rest) ← parseEntry rest
    let (entries, files) ← parseEntries count rest
    pure (e :: entries, f :: files)

def parseDir (pt : Bytes) : Fallible StorageError (List ObjectMeta × List FileRef) :=
  if pt.length < 20 ∨ pt.take 4 ≠ ascii "RSTD" then .err .corrupt
  else parseEntries (leNat ((pt.drop 16).take 4)) (pt.drop 20)

/-- An entry whose id fits its length byte is read back, and nothing after it is touched. -/
theorem parseEntry_encodeEntry (e : ObjectMeta × FileRef) (tail : Bytes)
    (h : e.1.objectId.length ≤ 255) : parseEntry (encodeEntry e ++ tail) = .ok (e, tail) := by
  obtain ⟨⟨oid, flags, dataSize⟩, fid, ver⟩ := e
  have hoid : (UInt8.ofNat oid.length).toNat = oid.length := by
    rw [UInt8.toNat_ofNat']
    have hle : oid.length ≤ 255 := h
    omega
  let rest := oid ++ (leBytes 4 flags.toNat ++ (leBytes 8 dataSize.toNat ++
    (leBytes 8 ver.toNat ++ tail)))
  have hbytes : encodeEntry (⟨oid, flags, dataSize⟩, fid, ver) ++ tail =
      fid.bytes ++ (UInt8.ofNat oid.length :: rest) := by
    simp [encodeEntry, rest]
  have hlen : rest.length = oid.length + 20 + tail.length := by
    simp [rest]
    omega
  have hfid : (arrayAt (fid.bytes ++ (UInt8.ofNat oid.length :: rest)) 0 16 :
      Fallible StorageError _) = .ok fid :=
    arrayAt_append [] fid _ rfl rfl
  have hguard : ¬ (fid.bytes ++ (UInt8.ofNat oid.length :: rest)).length < 16 + 1 := by
    simp
    omega
  have hroom : ¬ rest.length < oid.length + 4 + 8 + 8 := by omega
  have htake : rest.take oid.length = oid := take_left' rfl
  have hflags : (rest.drop oid.length).take 4 = leBytes 4 flags.toNat := by simp [rest]
  have hsize : (rest.drop (oid.length + 4)).take 8 = leBytes 8 dataSize.toNat := by
    simp [rest]
  have hver : (rest.drop (oid.length + 12)).take 8 = leBytes 8 ver.toNat := by
    simp [rest, drop_append, drop_eq_nil_of_le]
  have hdrop : rest.drop (oid.length + 20) = tail := by
    simp [rest, drop_append, drop_eq_nil_of_le]
  rw [hbytes, parseEntry, if_neg hguard, hfid, drop_left' fid.length_bytes]
  simp only [ok_bind, hoid, if_neg hroom, htake, hflags, hsize, hver, hdrop,
    ofNat_leNat_leBytes, ofNat_leNat_leBytes32, pure_eq]

section
variable {l : List (ObjectMeta × FileRef)}

theorem parseEntries_encode {n : Nat} (hn : n ≤ l.length)
    (hid : ∀ e ∈ l, e.1.objectId.length ≤ 255) (tail : Bytes) :
    parseEntries n (l.flatMap encodeEntry ++ tail) = .ok (l.take n).unzip := by
  induction l generalizing n with
  | nil =>
    cases n with
    | zero => rfl
    | succ => simp at hn
  | cons e l ih =>
    cases n with
    | zero => rfl
    | succ n =>
      have hrest := ih (n := n) (by simpa using hn)
        fun e' he' => hid e' (mem_cons_of_mem _ he')
      simp only [parseEntries, flatMap_cons, append_assoc]
      rw [parseEntry_encodeEntry e _ (hid e mem_cons_self)]
      simp [hrest]

/-- The count is written in 32 bits, so of a larger directory only the entries below
the truncated count are read back. -/
theorem parseDir_encodeDir (hid : ∀ e ∈ l, e.1.objectId.length ≤ 255) :
    parseDir (encodeDir l) = .ok (l.take (l.length % 2 ^ 32)).unzip := by
  have hguard : ¬ ((encodeDir l).length < 20 ∨ (encodeDir l).take 4 ≠ ascii "RSTD") := by
    simp [encodeDir, ascii]
    omega
  have hcount : ((encodeDir l).drop 16).take 4 = leBytes 4 l.length := by
    simp [encodeDir, ascii]
  have hrest : (encodeDir l).drop 20 = l.flatMap encodeEntry := by
    simp [encodeDir, ascii, drop_append, drop_eq_nil_of_le]
  have hle : l.length % 2 ^ 32 ≤ l.length := Nat.mod_le _ _
  rw [parseDir, if_neg hguard, hcount, hrest, leNat_leBytes_mod]
  simpa using parseEntries_encode hle hid []

end

/-- An entry is refused as corrupt, or it has a short id and took that and 37 bytes. -/
theorem parseEntry_cases (rest : Bytes) :
    parseEntry rest = .err .corrupt ∨ ∃ e rest', parseEntry rest = .ok (e, rest') ∧
      e.1.objectId.length ≤ 255 ∧ rest'.length + e.1.objectId.length + 37 = rest.length := by
  rw [parseEntry]
  split
  · exact .inl rfl
  · rename_i hlen
    obtain ⟨fid, hfid, -⟩ : ∃ b, (arrayAt rest 0 16 : Fallible StorageError _) = .ok b ∧ _ :=
      arrayAt_of_le (by omega)
    rw [hfid, ok_bind]
    cases hdrop : rest.drop 16 with
    | nil =>
      have hshort := drop_eq_nil_iff.mp hdrop
      omega
    | cons oidLen =>
      have hbyte := oidLen.toNat_lt
      have hrest := congrArg length hdrop
      rw [length_drop, length_cons] at hrest
      simp only
      split
      · exact .inl rfl
      · refine .inr ⟨_, _, rfl, ?_, ?_⟩
        · simp only [length_take]
          omega
        · simp only [length_drop, length_take]
          omega

theorem parseEntries_cases (n : Nat) (rest : Bytes) :
    parseEntries n rest = .err .corrupt ∨ ∃ entries files,
      parseEntries n rest = .ok (entries, files) ∧ entries.length = n ∧ files.length = n ∧
        n ≤ rest.length ∧ ∀ e ∈ entries, e.objectId.length ≤ 255 := by
  induction n generalizing rest with
  | zero => exact .inr ⟨[], [], rfl, rfl, rfl, Nat.zero_le _, by simp⟩
  | succ n ih =>
    rw [parseEntries]
    rcases parseEntry_cases rest with herr | ⟨⟨e, f⟩, rest1, hentry, hid, hlen⟩
    · rw [herr]
      exact .inl rfl
    · rw [hentry, ok_bind]
      rcases ih rest1 with herr | ⟨entries, files, hmore, hentries, hfiles, hn, hids⟩
      · simp only [herr]
        exact .inl rfl
      · simp only [hmore]
        refine .inr ⟨e :: entries, f :: files, rfl, ?_, ?_, by omega, ?_⟩
        · rw [length_cons, hentries]
        · rw [length_cons, hfiles]
        · intro e' he'
          rcases mem_cons.mp he' with rfl | hold
          · exact hid
          · exact hids e' hold

/-- The two vectors are parallel, no longer than the plaintext, and every id fits its
length byte. -/
theorem parseDir_cases (pt : Bytes) :
    parseDir pt = .err .corrupt ∨ ∃ entries files, parseDir pt = .ok (entries, files) ∧
      entries.length = files.length ∧ files.length < 2 ^ 32 ∧ files.length ≤ pt.length ∧
      ∀ e ∈ entries, e.objectId.length ≤ 255 := by
  rw [parseDir]
  split
  · exact .inl rfl
  · rcases parseEntries_cases (leNat ((pt.drop 16).take 4)) (pt.drop 20) with
      herr | ⟨entries, files, hok, hentries, hfiles, hn, hids⟩
    · exact .inl herr
    · have hcount : leNat ((pt.drop 16).take 4) < 2 ^ 32 := leNat_lt_of_le (length_take_le _ _)
      have hdrop : (pt.drop 20).length ≤ pt.length := by
        rw [length_drop]
        exact Nat.sub_le _ _
      exact .inr ⟨entries, files, hok, hentries.trans hfiles.symm, by omega, by omega, hids⟩

theorem parseDir_ok {pt : Bytes} {entries : List ObjectMeta} {files : List FileRef}
    (h : parseDir pt = .ok (entries, files)) :
    entries.length = files.length ∧ files.length < 2 ^ 32 ∧ files.length ≤ pt.length ∧
      ∀ e ∈ entries, e.objectId.length ≤ 255 := by
  rcases parseDir_cases pt with herr | ⟨entries', files', hok, hall⟩
  · rw [herr] at h
    cases h
  · rw [hok] at h
    cases h
    exact hall

theorem parseDir_ne_panic (pt : Bytes) : parseDir pt ≠ .panic := by
  rcases parseDir_cases pt with herr | ⟨entries, files, hok, -⟩
  · simp [herr]
  · simp [hok]

/-! ### Pairing by position -/

section
variable (entries : List ObjectMeta) (files : List FileRef)

@[simp] theorem length_listing : (listing entries files).length = entries.length := by
  simp [listing]

theorem map_fst_listing : (listing entries files).map Prod.fst = entries := by
  simp [listing, Function.comp_def]

theorem getElem?_listing (i : Nat) :
    (listing entries files)[i]? = entries[i]?.map fun e => (e, files.getD i (zero 16, 1)) := by
  simp [listing, Option.map_map, Function.comp_def]

end

/-- What stands at one place of the two vectors stands there in the list of pairs. -/
theorem getElem?_of_unzip {α β : Type} {l : List (α × β)} {as : List α} {bs : List β} {i : Nat}
    {a : α} {b : β} (h : l.unzip = (as, bs)) (ha : as[i]? = some a) (hb : bs[i]? = some b) :
    l[i]? = some (a, b) := by
  rw [unzip_eq_map] at h
  cases h
  rw [getElem?_map] at ha hb
  cases hl : l[i]? with
  | none =>
    rw [hl] at ha
    cases ha
  | some =>
    rw [hl] at ha hb
    cases ha
    cases hb
    rfl

theorem listing_eq_zip {entries : List ObjectMeta} {files : List FileRef}
    (h : entries.length = files.length) : listing entries files = entries.zip files := by
  apply ext_getElem?
  intro i
  rw [getElem?_listing, zip, getElem?_zipWith]
  cases he : entries[i]? with
  | none => rfl
  | some =>
    have hi : i < files.length := by
      rw [← h]
      exact (List.getElem?_eq_some_iff.mp he).1
    simp [getElem?_eq_getElem hi]

end Rustee.Storage
