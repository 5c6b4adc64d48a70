import LibXmtp.Data.TlsCodec
import Mathlib.Algebra.Group.Nat.Defs

/-! Variable-length integers whose first two bits say how many bytes they take, each written in
the fewest that hold it, and vectors that begin with their length in bytes. -/

namespace LibXmtp.Data

namespace QuicVarint

def write (n : Nat) : Except TlsCodecError Bytes :=
  if n < 2 ^ 6 then .ok [UInt8.ofNat n]
  else if n < 2 ^ 14 then .ok [UInt8.ofNat (64 + n / 2 ^ 8), UInt8.ofNat n]
  else if n < 2 ^ 30 then
    .ok [UInt8.ofNat (128 + n / 2 ^ 24), UInt8.ofNat (n / 2 ^ 16), UInt8.ofNat (n / 2 ^ 8),
      UInt8.ofNat n]
  else .error (.encodingError "the length does not fit into thirty bits")

def atLeast (bound n consumed : Nat) (rest : Bytes) :
    Except TlsCodecError ((Nat × Nat) × Bytes) :=
  if bound ≤ n then .ok ((n, consumed), rest) else .error .invalidVectorLength

def read : Bytes → Except TlsCodecError ((Nat × Nat) × Bytes)
  | [] => .error .endOfStream
  | b :: bytes =>
    if b.toNat < 64 then .ok ((b.toNat, 1), bytes)
    else if b.toNat < 128 then
      match bytes with
      | c :: rest => atLeast (2 ^ 6) ((b.toNat - 64) * 2 ^ 8 + c.toNat) 2 rest
      | _ => .error .endOfStream
    else if b.toNat < 192 then
      match bytes with
      | c :: d :: e :: rest =>
        atLeast (2 ^ 14)
          ((b.toNat - 128) * 2 ^ 24 + c.toNat * 2 ^ 16 + d.toNat * 2 ^ 8 + e.toNat) 4 rest
      | _ => .error .endOfStream
    else .error .invalidVectorLength

@[simp] theorem atLeast_eq_ok {bound n consumed : Nat} {rest : Bytes}
    {read : (Nat × Nat) × Bytes} :
    atLeast bound n consumed rest = .ok read ↔ bound ≤ n ∧ ((n, consumed), rest) = read := by
  rw [atLeast]
  split <;> simp [*]

theorem ofNat_eq {b : UInt8} {n : Nat} (h : n % 2 ^ 8 = b.toNat) : UInt8.ofNat n = b := by
  apply UInt8.toNat.inj
  simpa using h

theorem read_write {n : Nat} {bytes : Bytes} (h : write n = .ok bytes) (rest : Bytes) :
    read (bytes ++ rest) = .ok ((n, bytes.length), rest) := by
  simp only [write] at h
  split at h
  · rename_i hn
    cases h
    have hfirst : (UInt8.ofNat n).toNat = n := by simp; omega
    have hshort : n < 64 := hn
    simp [read, hfirst, hshort]
  · rename_i hlow
    split at h
    · rename_i hn
      cases h
      have hfirst : (UInt8.ofNat (64 + n / 2 ^ 8)).toNat = 64 + n / 2 ^ 8 := by simp; omega
      have hshort : ¬64 + n / 2 ^ 8 < 64 := by omega
      have hlong : 64 + n / 2 ^ 8 < 128 := by omega
      simp only [List.cons_append, List.nil_append, read, hfirst, hshort, hlong, if_true, if_false,
        atLeast_eq_ok]
      simp
      omega
    · rename_i hmid
      split at h
      · rename_i hn
        cases h
        have hfirst : (UInt8.ofNat (128 + n / 2 ^ 24)).toNat = 128 + n / 2 ^ 24 := by simp; omega
        have hshort : ¬128 + n / 2 ^ 24 < 128 := by omega
        have hshort' : ¬128 + n / 2 ^ 24 < 64 := by omega
        have hlong : 128 + n / 2 ^ 24 < 192 := by omega
        simp only [List.cons_append, List.nil_append, read, hfirst, hshort, hshort', hlong,
          if_true, if_false, atLeast_eq_ok]
        simp
        omega
      · cases h

theorem write_read {bytes rest : Bytes} {n consumed : Nat}
    (h : read bytes = .ok ((n, consumed), rest)) :
    ∃ written, write n = .ok written ∧ written.length = consumed ∧ written ++ rest = bytes := by
  cases bytes with
  | nil => cases h
  | cons b bytes =>
    have hb := b.toNat_lt
    simp only [read] at h
    split at h
    · rename_i hshort
      cases h
      exact ⟨[b], by simp [write, hshort], rfl, rfl⟩
    · split at h
      · rename_i hshort hlong
        split at h
        · rename_i c rest'
          have hc := c.toNat_lt
          simp only [atLeast_eq_ok, Prod.mk.injEq] at h
          have ⟨hmin, ⟨hn, hconsumed⟩, hrest⟩ := h
          subst hn hconsumed hrest
          refine ⟨[b, c], ?_, rfl, rfl⟩
          rw [write, if_neg (by omega), if_pos (by omega), ofNat_eq (b := b) (by omega),
            ofNat_eq (b := c) (by omega)]
        · cases h
      · split at h
        · split at h
          · rename_i c d e rest'
            have hc := c.toNat_lt
            have hd := d.toNat_lt
            have he := e.toNat_lt
            simp only [atLeast_eq_ok, Prod.mk.injEq] at h
            have ⟨hmin, ⟨hn, hconsumed⟩, hrest⟩ := h
            subst hn hconsumed hrest
            refine ⟨[b, c, d, e], ?_, rfl, rfl⟩
            rw [write, if_neg (by omega), if_neg (by omega), if_pos (by omega),
              ofNat_eq (b := b) (by omega), ofNat_eq (b := c) (by omega),
              ofNat_eq (b := d) (by omega), ofNat_eq (b := e) (by omega)]
          · cases h
        · cases h

def writeBytes (content : Bytes) : Except TlsCodecError Bytes :=
  return (← write content.length) ++ content

def readBytes (bytes : Bytes) : Except TlsCodecError (Bytes × Bytes) := do
  let ((length, _), rest) ← read bytes
  rejectIf (rest.length < length) .endOfStream
  return (rest.take length, rest.drop length)

theorem writeBytes_eq_ok {content bytes : Bytes} : writeBytes content = .ok bytes ↔
    ∃ length, write content.length = .ok length ∧ length ++ content = bytes := by
  simp only [writeBytes, bind_eq_ok, pure_eq_ok]

theorem readBytes_eq_ok {content bytes rest : Bytes} : readBytes bytes = .ok (content, rest) ↔
    ∃ length, write content.length = .ok length ∧ length ++ content ++ rest = bytes := by
  constructor
  · intro h
    simp only [readBytes, bind_eq_ok, pure_eq_ok, rejectIf_eq_ok, Prod.exists, Prod.mk.injEq,
      decide_eq_false_iff_not] at h
    obtain ⟨length, consumed, tail, hlength, _, hshort, rfl, rfl⟩ := h
    obtain ⟨written, hwrite, _, happ⟩ := write_read hlength
    have hlen : (tail.take length).length = length := by
      rw [List.length_take]
      omega
    refine ⟨written, by rw [hlen, hwrite], ?_⟩
    rw [List.append_assoc, List.take_append_drop, happ]
  · rintro ⟨length, hlength, rfl⟩
    have hshort : ¬(content ++ rest).length < content.length := by simp
    simp only [readBytes, List.append_assoc, read_write hlength, ok_bind, hshort, decide_false,
      rejectIf_false, List.take_left', List.drop_left']
    rfl

section Vec

variable {α : Type} {c : TlsCodec α} {bytes rest : Bytes} {as : List α}

def writeVec (c : TlsCodec α) (as : List α) : Except TlsCodecError Bytes := do
  let contents ← as.mapM c.serialize
  writeBytes contents.flatten

/-- Elements are read as long as bytes are missing, each of which takes at least one of them. -/
def readElements (c : TlsCodec α) : Nat → Nat → Bytes → Except TlsCodecError (List α × Bytes)
  | _, 0, bytes => .ok ([], bytes)
  | 0, _ + 1, _ => .error .invalidVectorLength
  | fuel + 1, missing + 1, bytes => do
    let (a, rest) ← c.deserialize bytes
    let (as, rest) ← readElements c fuel (missing + 1 - (bytes.length - rest.length)) rest
    return (a :: as, rest)

def readVec (c : TlsCodec α) (bytes : Bytes) : Except TlsCodecError (List α × Bytes) := do
  let ((length, _), rest) ← read bytes
  readElements c length length rest

theorem writeVec_eq_ok : writeVec c as = .ok bytes ↔ ∃ contents length,
    as.mapM c.serialize = .ok contents ∧ write contents.flatten.length = .ok length ∧
      length ++ contents.flatten = bytes := by
  simp only [writeVec, bind_eq_ok, writeBytes_eq_ok, exists_and_left]

theorem readElements_eq_ok (hc : ∀ a ∈ as, c.Restores a) {contents : List Bytes}
    (h : as.mapM c.serialize = .ok contents) {fuel : Nat} (hfuel : contents.flatten.length ≤ fuel) :
    readElements c fuel contents.flatten.length (contents.flatten ++ rest) = .ok (as, rest) := by
  induction as generalizing contents fuel with
  | nil =>
    cases h
    cases fuel <;> rfl
  | cons a as ih =>
    simp only [List.mapM_cons, bind_eq_ok, pure_eq_ok] at h
    obtain ⟨bytes, hbytes, contents', hcontents, rfl⟩ := h
    obtain ⟨hne, hread⟩ := hc a List.mem_cons_self bytes hbytes
    obtain ⟨b, tail, rfl⟩ := List.exists_cons_of_ne_nil hne
    have hrest := @ih (fun b hb => hc b (List.mem_cons_of_mem _ hb)) contents' hcontents
    simp only [List.flatten_cons, List.cons_append, List.length_cons, List.length_append,
      List.append_assoc] at hfuel hread ⊢
    cases fuel with
    | zero => omega
    | succ fuel =>
      have hmissing : tail.length + contents'.flatten.length + 1 -
          ((tail ++ (contents'.flatten ++ rest)).length + 1 -
            (contents'.flatten ++ rest).length) = contents'.flatten.length := by
        simp only [List.length_append]
        omega
      rw [readElements, hread, ok_bind, List.length_cons]
      simp only [hmissing]
      rw [hrest (by omega)]
      rfl

theorem readVec_writeVec (hc : ∀ a ∈ as, c.Restores a) (h : writeVec c as = .ok bytes)
    (rest : Bytes) : readVec c (bytes ++ rest) = .ok (as, rest) := by
  obtain ⟨contents, length, hcontents, hlength, rfl⟩ := writeVec_eq_ok.mp h
  simp only [readVec, List.append_assoc, read_write hlength, ok_bind]
  exact readElements_eq_ok hc hcontents (Nat.le_refl _)

theorem reads_readElements {fuel missing : Nat}
    (h : readElements c fuel missing bytes = .ok (as, rest)) : c.Reads bytes as rest := by
  induction fuel generalizing missing bytes as with
  | zero =>
    cases missing with
    | zero =>
      cases h
      exact .nil
    | succ missing => cases h
  | succ fuel ih =>
    cases missing with
    | zero =>
      cases h
      exact .nil
    | succ missing =>
      simp only [readElements, bind_eq_ok, pure_eq_ok, Prod.exists, Prod.mk.injEq] at h
      obtain ⟨a, middle, hread, as', rest', hreads, rfl, rfl⟩ := h
      exact .cons hread (ih hreads)

theorem reads_readVec (h : readVec c bytes = .ok (as, rest)) :
    ∃ n consumed tail, read bytes = .ok ((n, consumed), tail) ∧ c.Reads tail as rest := by
  simp only [readVec, bind_eq_ok, Prod.exists] at h
  obtain ⟨n, consumed, tail, hlength, hreads⟩ := h
  exact ⟨n, consumed, tail, hlength, reads_readElements hreads⟩

end Vec

end QuicVarint

def Vlen.quic : Vlen where
  writeLength := QuicVarint.write
  readLength := QuicVarint.read
  writeBytes := QuicVarint.writeBytes
  readBytes := QuicVarint.readBytes
  writeVec := QuicVarint.writeVec
  readVec := QuicVarint.readVec
  read_write := QuicVarint.read_write
  write_read := QuicVarint.write_read
  write_zero := rfl
  write_ne_nil n h := by
    have hread := QuicVarint.read_write h []
    cases hread
  writeBytes_eq_ok := QuicVarint.writeBytes_eq_ok
  readBytes_eq_ok := QuicVarint.readBytes_eq_ok
  writeVec_eq_ok := QuicVarint.writeVec_eq_ok
  readVec_writeVec := QuicVarint.readVec_writeVec
  reads_readVec := QuicVarint.reads_readVec

end LibXmtp.Data
