import EngineBridge.Image.Png

/-! What is written as an image file can be read again. The reader takes files of one data chunk
with stored blocks and rows that are not filtered, and judges every length and every sum in them. -/
namespace EngineBridge

/-- A format of image files, as far as such files are written: what its encoder makes of an image
within the limit that is not empty and has the right number of bytes, its decoder undoes. -/
structure ImageFormat where
  encode : UInt32 → UInt32 → ByteArray → Except String ByteArray
  decode? : ByteArray → Option (UInt32 × UInt32 × ByteArray)
  exists_encode {width height : UInt32} {bytes : ByteArray} (hwidth : width ≠ 0)
    (hheight : height ≠ 0) (hsize : bytes.size = 4 * (width.toNat * height.toNat))
    (harea : (⟨width, height⟩ : PhysicalSize).area ≤ PhysicalSize.maxArea) :
    ∃ file, encode width height bytes = .ok file ∧ decode? file = some (width, height, bytes)

namespace Png

section Fold

variable {β : Type} (f : β → UInt8 → β) (bytes : ByteArray)

theorem foldlM_loop_eq {h : bytes.size ≤ bytes.size} {count start : Nat} (init : β)
    (hcount : start + count = bytes.size) :
    ByteArray.foldlM.loop (m := Id) (fun b byte => pure (f b byte)) bytes bytes.size h count start
      init = pure ((bytes.data.toList.drop start).foldl f init) := by
  induction count generalizing start init with
  | zero =>
    have hdrop : bytes.data.toList.drop start = [] := by
      rw [List.drop_eq_nil_iff]
      exact Nat.le_of_eq hcount.symm
    change (if _ : start < bytes.size then _ else _) = _
    rw [hdrop, dif_neg (by omega)]
    rfl
  | succ count ih =>
    have hstart : start < bytes.size := by omega
    have hdrop : bytes.data.toList.drop start =
        bytes[start] :: bytes.data.toList.drop (start + 1) := List.drop_eq_getElem_cons _
    rw [hdrop, List.foldl_cons, ← ih (f init bytes[start]) (by omega)]
    change (if _ : start < bytes.size then _ else _) = _
    rw [dif_pos hstart]
    rfl

theorem foldl_eq_foldl_drop {start : Nat} (init : β) (h : start ≤ bytes.size) :
    bytes.foldl f init start = (bytes.data.toList.drop start).foldl f init := by
  change (if _ : bytes.size ≤ bytes.size then _ else _) = _
  rw [dif_pos (Nat.le_refl _)]
  exact foldlM_loop_eq f bytes init (by omega)

end Fold

def wordBytes (n : UInt32) : List UInt8 :=
  [(n >>> 24).toUInt8, (n >>> 16).toUInt8, (n >>> 8).toUInt8, n.toUInt8]

def takeWord? : List UInt8 → Option (UInt32 × List UInt8)
  | a :: b :: c :: d :: rest =>
    some (.ofNat (((a.toNat * 256 + b.toNat) * 256 + c.toNat) * 256 + d.toNat), rest)
  | _ => none

@[simp] theorem length_wordBytes (n : UInt32) : (wordBytes n).length = 4 := rfl

@[simp] theorem toList_word (out : ByteArray) (n : UInt32) :
    (word out n).data.toList = out.data.toList ++ wordBytes n := by
  simp [word, wordBytes]

@[simp] theorem takeWord?_wordBytes (n : UInt32) (rest : List UInt8) :
    takeWord? (wordBytes n ++ rest) = some (n, rest) := by
  have hn := n.toNat_lt
  simp only [wordBytes, List.cons_append, List.nil_append, takeWord?]
  congr 2
  apply UInt32.toNat.inj
  simp
  omega

def sumStep (c : UInt32) (b : UInt8) : UInt32 :=
  checksumTable.getD ((c ^^^ b.toUInt32) &&& 0xFF).toNat 0 ^^^ (c >>> 8)

def sumBytes (bytes : List UInt8) : UInt32 := bytes.foldl sumStep 0xFFFFFFFF ^^^ 0xFFFFFFFF

theorem checksum_eq {bytes : ByteArray} {start : Nat} (h : start ≤ bytes.size) :
    checksum bytes start = sumBytes (bytes.data.toList.drop start) := by
  unfold checksum
  rw [foldl_eq_foldl_drop _ _ _ h]
  rfl

def chunkBytes (kind content : List UInt8) : List UInt8 :=
  wordBytes (.ofNat content.length) ++ (kind ++ content) ++ wordBytes (sumBytes (kind ++ content))

@[simp] theorem toList_chunk (out : ByteArray) (kind : String) (content : ByteArray) :
    (chunk out kind content).data.toList =
      out.data.toList ++ chunkBytes kind.toUTF8.data.toList content.data.toList := by
  have hstart : (word out (.ofNat content.size)).size ≤
      (word out (.ofNat content.size) ++ kind.toUTF8 ++ content).size := by
    rw [ByteArray.append_assoc, ByteArray.size_append]
    exact Nat.le_add_right _ _
  have hdrop : (word out (.ofNat content.size) ++ kind.toUTF8 ++ content).data.toList.drop
      (word out (.ofNat content.size)).size = kind.toUTF8.data.toList ++ content.data.toList := by
    rw [ByteArray.append_assoc, ByteArray.data_append, Array.toList_append, ByteArray.data_append,
      Array.toList_append]
    exact List.drop_left
  unfold chunk
  simp only [toList_word, checksum_eq hstart, hdrop]
  simp [chunkBytes]

def takeChunk? (kind bytes : List UInt8) : Option (List UInt8 × List UInt8) := do
  let (size, rest) ← takeWord? bytes
  let (body, rest) := rest.splitAt (kind.length + size.toNat)
  let (sum, rest) ← takeWord? rest
  if body.take kind.length = kind ∧ sum = sumBytes body then some (body.drop kind.length, rest)
  else none

@[simp] theorem takeChunk?_chunkBytes (kind : List UInt8) {content : List UInt8}
    (h : content.length < UInt32.size) (rest : List UInt8) :
    takeChunk? kind (chunkBytes kind content ++ rest) = some (content, rest) := by
  have hsize : kind.length + (UInt32.ofNat content.length).toNat = (kind ++ content).length := by
    rw [UInt32.toNat_ofNat_of_lt' h, List.length_append]
  have hsplit (rest : List UInt8) : (kind ++ content ++ rest).splitAt (kind ++ content).length =
      (kind ++ content, rest) := by
    rw [List.splitAt_eq, List.take_left, List.drop_left]
  unfold takeChunk? chunkBytes
  rw [List.append_assoc, List.append_assoc, takeWord?_wordBytes]
  simp only [Option.bind_eq_bind, Option.bind_some, hsize, hsplit, takeWord?_wordBytes,
    List.take_left, List.drop_left, and_self, if_true]

def shortBytes (n : Nat) : List UInt8 := [.ofNat n, .ofNat (n / 256)]

@[simp] theorem toList_shortWord (out : ByteArray) (n : Nat) :
    (shortWord out n).data.toList = out.data.toList ++ shortBytes n := by
  simp [shortWord, shortBytes]

def blockBytes (bytes : List UInt8) : Nat → List UInt8
  | 0 => []
  | count + 1 =>
    let size := min maxBlock bytes.length
    (if count = 0 then 1 else 0) :: (shortBytes size ++ shortBytes (maxBlock - size)) ++
      bytes.take size ++ blockBytes (bytes.drop size) count

theorem toList_blocks (out bytes : ByteArray) (start count : Nat) :
    (blocks out bytes start count).data.toList =
      out.data.toList ++ blockBytes (bytes.data.toList.drop start) count := by
  induction count generalizing out start with
  | zero => simp [blocks, blockBytes]
  | succ count ih =>
    have hsize : bytes.size - start = (bytes.data.toList.drop start).length := by simp
    unfold blocks
    rw [ih]
    simp [blockBytes, List.drop_drop]

theorem length_drop_lt (mark low high lowRest highRest : UInt8) (rest : List UInt8) (size : Nat) :
    (rest.drop size).length < (mark :: low :: high :: lowRest :: highRest :: rest).length := by
  rw [List.length_drop]
  simp only [List.length_cons]
  omega

def takeBlocks? (bytes : List UInt8) : Option (List UInt8 × List UInt8) :=
  match bytes with
  | mark :: low :: high :: lowRest :: highRest :: rest =>
    let size := low.toNat + 256 * high.toNat
    if lowRest.toNat + 256 * highRest.toNat = maxBlock - size ∧ size ≤ rest.length then
      if mark = 1 then some (rest.splitAt size)
      else if mark = 0 then
        (takeBlocks? (rest.drop size)).map fun (more, rest') => (rest.take size ++ more, rest')
      else none
    else none
  | _ => none
termination_by bytes.length
decreasing_by exact length_drop_lt ..

theorem toNat_shortBytes {n : Nat} (h : n ≤ maxBlock) :
    (UInt8.ofNat n).toNat + 256 * (UInt8.ofNat (n / 256)).toNat = n := by
  unfold maxBlock at h
  simp
  omega

theorem takeBlocks?_cons (mark : UInt8) {content : List UInt8} (h : content.length ≤ maxBlock)
    (rest : List UInt8) :
    takeBlocks? (mark :: (shortBytes content.length ++ shortBytes (maxBlock - content.length)) ++
      content ++ rest) =
      if mark = 1 then some (content, rest)
      else if mark = 0 then (takeBlocks? rest).map fun (more, rest') => (content ++ more, rest')
      else none := by
  simp only [shortBytes, List.cons_append, List.nil_append]
  rw [takeBlocks?]
  simp only [toNat_shortBytes h, toNat_shortBytes (Nat.sub_le _ _)]
  simp [List.splitAt_eq, List.take_left', List.drop_left']

theorem takeBlocks?_blockBytes {bytes : List UInt8} {count : Nat}
    (h : bytes.length ≤ (count + 1) * maxBlock) (rest : List UInt8) :
    takeBlocks? (blockBytes bytes (count + 1) ++ rest) = some (bytes, rest) := by
  induction count generalizing bytes with
  | zero =>
    have hsize : min maxBlock bytes.length = bytes.length := by omega
    have hlast : bytes.length ≤ maxBlock := by omega
    simpa [blockBytes, hsize] using takeBlocks?_cons 1 hlast rest
  | succ count ih =>
    have hsize : (bytes.take (min maxBlock bytes.length)).length = min maxBlock bytes.length := by
      simp
    have hfull : (bytes.take (min maxBlock bytes.length)).length ≤ maxBlock := by omega
    have hrest : (bytes.drop (min maxBlock bytes.length)).length ≤ (count + 1) * maxBlock := by
      rw [Nat.succ_mul] at h
      rw [List.length_drop]
      omega
    have hblock := takeBlocks?_cons 0 hfull
      (blockBytes (bytes.drop (min maxBlock bytes.length)) (count + 1) ++ rest)
    rw [hsize, ih hrest] at hblock
    rw [blockBytes]
    simpa using hblock

theorem length_blockBytes_le (bytes : List UInt8) (count : Nat) :
    (blockBytes bytes count).length ≤ bytes.length + 5 * count := by
  induction count generalizing bytes with
  | zero => simp [blockBytes]
  | succ count ih =>
    have hrest := ih (bytes.drop (min maxBlock bytes.length))
    simp [blockBytes, shortBytes] at hrest ⊢
    omega

def sumsStep (sums : UInt32 × UInt32) (byte : UInt8) : UInt32 × UInt32 :=
  ((sums.1 + byte.toUInt32) % 65521, (sums.2 + (sums.1 + byte.toUInt32) % 65521) % 65521)

def closingSum (bytes : List UInt8) : UInt32 :=
  let (a, b) := bytes.foldl sumsStep (1, 0)
  (b <<< 16) ||| a

theorem adler_eq (bytes : ByteArray) : adler bytes = closingSum bytes.data.toList := by
  unfold adler
  rw [foldl_eq_foldl_drop _ _ _ (Nat.zero_le _)]
  rfl

def streamBytes (bytes : List UInt8) : List UInt8 :=
  [0x78, 0x01] ++ blockBytes bytes (bytes.length / maxBlock + 1) ++ wordBytes (closingSum bytes)

theorem toList_stored (bytes : ByteArray) :
    (stored bytes).data.toList = streamBytes bytes.data.toList := by
  unfold stored streamBytes
  rw [toList_word, toList_blocks, adler_eq]
  rfl

def content? (stream : List UInt8) : Option (List UInt8) := do
  let (content, rest) ← takeBlocks? (stream.drop 2)
  let (sum, rest) ← takeWord? rest
  if stream.take 2 = [0x78, 0x01] ∧ sum = closingSum content ∧ rest = [] then some content
  else none

theorem content?_streamBytes (bytes : List UInt8) : content? (streamBytes bytes) = some bytes := by
  have hcover : bytes.length ≤ (bytes.length / maxBlock + 1) * maxBlock :=
    Nat.le_of_lt (Nat.lt_mul_of_div_lt (Nat.lt_succ_self _) (by decide))
  have hword : takeWord? (wordBytes (closingSum bytes)) = some (closingSum bytes, []) := by
    simpa using takeWord?_wordBytes (closingSum bytes) []
  simp [content?, streamBytes, takeBlocks?_blockBytes hcover, hword]

def rowBytes (stride : Nat) (bytes : List UInt8) : Nat → List UInt8
  | 0 => []
  | height + 1 => 0 :: bytes.take stride ++ rowBytes stride (bytes.drop stride) height

theorem rowBytes_succ (stride : Nat) (bytes : List UInt8) (height : Nat) :
    rowBytes stride bytes (height + 1) =
      rowBytes stride bytes height ++ 0 :: (bytes.drop (height * stride)).take stride := by
  induction height generalizing bytes with
  | zero => simp [rowBytes]
  | succ height ih =>
    rw [rowBytes, ih, rowBytes]
    simp [List.drop_drop, Nat.succ_mul, Nat.add_comm]

theorem toList_rows (b : Bitmap) :
    (rows b).data.toList = rowBytes (4 * b.width.toNat) b.bytes.data.toList b.height.toNat := by
  unfold rows
  simp only
  generalize b.height.toNat = height
  induction height with
  | zero => rfl
  | succ height ih =>
    rw [Nat.fold_succ, rowBytes_succ, ← ih]
    simp [Nat.succ_mul]

def unframed? (stride : Nat) : Nat → List UInt8 → Option (List UInt8)
  | 0, bytes => if bytes = [] then some [] else none
  | height + 1, filter :: bytes =>
    if filter = 0 ∧ stride ≤ bytes.length then
      (unframed? stride height (bytes.drop stride)).map (bytes.take stride ++ ·)
    else none
  | _ + 1, [] => none

theorem unframed?_rowBytes {stride height : Nat} {bytes : List UInt8}
    (h : bytes.length = height * stride) :
    unframed? stride height (rowBytes stride bytes height) = some bytes := by
  induction height generalizing bytes with
  | zero => simp_all [rowBytes, unframed?]
  | succ height ih =>
    rw [Nat.succ_mul] at h
    have hrow : (bytes.take stride).length = stride := by simp; omega
    have hrest : unframed? stride height (rowBytes stride (bytes.drop stride) height) =
        some (bytes.drop stride) := ih (by simp; omega)
    simp [rowBytes, unframed?, hrest, List.take_left', List.drop_left', hrow]

theorem length_rowBytes_le (stride : Nat) (bytes : List UInt8) (height : Nat) :
    (rowBytes stride bytes height).length ≤ height * (stride + 1) := by
  induction height generalizing bytes with
  | zero => simp [rowBytes]
  | succ height ih =>
    have hrest := ih (bytes.drop stride)
    simp [rowBytes, Nat.succ_mul] at hrest ⊢
    omega

def signature : List UInt8 := [0x89, 0x50, 0x4E, 0x47, 0x0D, 0x0A, 0x1A, 0x0A]

def headerEnd : List UInt8 := [8, 6, 0, 0, 0]

def kindBytes (kind : String) : List UInt8 := kind.toUTF8.data.toList

def headerBytes (b : Bitmap) : List UInt8 := wordBytes b.width ++ wordBytes b.height ++ headerEnd

def fileBytes (b : Bitmap) : List UInt8 :=
  signature ++ (chunkBytes (kindBytes "IHDR") (headerBytes b) ++
    (chunkBytes (kindBytes "IDAT") (streamBytes (rows b).data.toList) ++
      chunkBytes (kindBytes "IEND") []))

theorem toList_encode (b : Bitmap) : (encode b).data.toList = fileBytes b := by
  simp [encode, header, fileBytes, headerBytes, kindBytes, toList_stored, signature, headerEnd]

def decode? (file : ByteArray) : Option (UInt32 × UInt32 × ByteArray) := do
  let (header, rest) ← takeChunk? (kindBytes "IHDR") (file.data.toList.drop 8)
  let (stream, rest) ← takeChunk? (kindBytes "IDAT") rest
  let (final, rest) ← takeChunk? (kindBytes "IEND") rest
  let (width, header) ← takeWord? header
  let (height, header) ← takeWord? header
  let content ← content? stream
  let pixels ← unframed? (4 * width.toNat) height.toNat content
  if file.data.toList.take 8 = signature ∧ header = headerEnd ∧ final = [] ∧ rest = [] then
    some (width, height, ⟨pixels.toArray⟩)
  else none

theorem length_streamBytes_lt {b : Bitmap} (hwidth : b.width ≠ 0)
    (harea : b.size.area ≤ PhysicalSize.maxArea) :
    (streamBytes (rows b).data.toList).length < UInt32.size := by
  have hrows := length_rowBytes_le (4 * b.width.toNat) b.bytes.data.toList b.height.toNat
  have hblocks := length_blockBytes_le (rows b).data.toList
    ((rows b).data.toList.length / maxBlock + 1)
  have hpos : 0 < b.width.toNat := by
    rw [Nat.pos_iff_ne_zero]
    exact fun hzero => hwidth (UInt32.toNat.inj hzero)
  have hheight : b.height.toNat ≤ b.width.toNat * b.height.toNat := Nat.le_mul_of_pos_left _ hpos
  have hsides : b.height.toNat * (4 * b.width.toNat + 1) =
      4 * (b.width.toNat * b.height.toNat) + b.height.toNat := by
    rw [Nat.mul_add, Nat.mul_one, Nat.mul_left_comm, Nat.mul_comm b.height.toNat]
  change b.width.toNat * b.height.toNat ≤ 67108864 at harea
  rw [hsides, ← toList_rows] at hrows
  unfold streamBytes maxBlock at *
  change _ < 4294967296
  simp only [List.length_append, List.length_cons, List.length_nil, length_wordBytes]
  omega

theorem decode?_encode {b : Bitmap} (hwidth : b.width ≠ 0)
    (harea : b.size.area ≤ PhysicalSize.maxArea) :
    decode? (encode b) = some (b.width, b.height, b.bytes) := by
  have hpixels : unframed? (4 * b.width.toNat) b.height.toNat (rows b).data.toList =
      some b.bytes.data.toList := by
    rw [toList_rows]
    apply unframed?_rowBytes
    calc b.bytes.data.toList.length = 4 * (b.width.toNat * b.height.toNat) := b.size_bytes
      _ = b.height.toNat * (4 * b.width.toNat) := by
        rw [Nat.mul_comm b.width.toNat, Nat.mul_left_comm]
  have hheader : (headerBytes b).length < UInt32.size :=
    Nat.lt_of_lt_of_le (by decide : 13 < 14) (by decide)
  have hfinal : takeChunk? (kindBytes "IEND") (chunkBytes (kindBytes "IEND") []) =
      some ([], []) := by
    simpa using takeChunk?_chunkBytes (kindBytes "IEND") (by decide : [].length < UInt32.size) []
  have htake (rest : List UInt8) : (signature ++ rest).take 8 = signature :=
    List.take_left' rfl
  have hdrop (rest : List UInt8) : (signature ++ rest).drop 8 = rest := List.drop_left' rfl
  unfold decode?
  rw [toList_encode, fileBytes, htake, hdrop, takeChunk?_chunkBytes _ hheader]
  simp [takeChunk?_chunkBytes _ (length_streamBytes_lt hwidth harea), hfinal, headerBytes,
    content?_streamBytes, hpixels]

def format : ImageFormat where
  encode width height bytes :=
    if h : bytes.size = 4 * (width.toNat * height.toNat) then .ok (encode ⟨width, height, bytes, h⟩)
    else .error s!"{bytes.size} bytes"
  decode? := decode?
  exists_encode hwidth _ hsize harea := by
    rw [dif_pos hsize]
    exact ⟨_, rfl, decode?_encode hwidth harea⟩

end Png

end EngineBridge
