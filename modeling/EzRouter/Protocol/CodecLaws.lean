import EzRouter.Protocol.Codec

/-!
# What the codec guarantees

Encoding and decoding are inverse to each other on the frames the protocol
knows, and the five verdicts of `proto_decode` say exactly which buffers more
input can still turn into a frame.
-/

namespace EzRouter

open EzRouter.Foundation

theorem leBytes_take {bytes : List UInt8} {width modulus : Nat}
    (h : bytes.length = width) (hmodulus : 256 ^ width = modulus) :
    leBytes width (leNat bytes % modulus) = bytes := by
  subst h hmodulus
  rw [Nat.mod_eq_of_lt (leNat_lt bytes), leBytes_leNat]

namespace ProtoFrameHdr

theorem ofBytes_toBytes (h : ProtoFrameHdr) (rest : List UInt8) :
    ofBytes (h.toBytes ++ rest) = h := by
  have hmagic : (h.toBytes ++ rest).take 2 = leBytes 2 h.magic.toNat := rfl
  have hversion : ((h.toBytes ++ rest).drop 2).take 1 =
      leBytes 1 h.version.toNat := rfl
  have hcmd : ((h.toBytes ++ rest).drop 3).take 1 =
      leBytes 1 h.cmd.toNat := rfl
  have hseq : ((h.toBytes ++ rest).drop 4).take 4 =
      leBytes 4 h.seq.toNat := rfl
  have hlen : ((h.toBytes ++ rest).drop 8).take 4 =
      leBytes 4 h.payloadLen.toNat := rfl
  rw [ofBytes, hmagic, hversion, hcmd, hseq, hlen,
    leNat_leBytes h.magic.toNat_lt, leNat_leBytes h.version.toNat_lt,
    leNat_leBytes h.cmd.toNat_lt, leNat_leBytes h.seq.toNat_lt,
    leNat_leBytes h.payloadLen.toNat_lt]
  simp

theorem toBytes_ofBytes {bytes : List UInt8}
    (h : protoHdrSize ≤ bytes.length) :
    (ofBytes bytes).toBytes = bytes.take protoHdrSize := by
  have hfield : ∀ offset width modulus, offset + width ≤ 12 →
      256 ^ width = modulus →
      leBytes width (leNat ((bytes.drop offset).take width) % modulus) =
        (bytes.drop offset).take width := by
    intro offset width modulus hle hmodulus
    apply leBytes_take _ hmodulus
    unfold protoHdrSize at h
    simp
    omega
  have hmagic := hfield 0 2 (2 ^ 16) (by omega) rfl
  have hversion := hfield 2 1 (2 ^ 8) (by omega) rfl
  have hcmd := hfield 3 1 (2 ^ 8) (by omega) rfl
  have hseq := hfield 4 4 (2 ^ 32) (by omega) rfl
  have hlen := hfield 8 4 (2 ^ 32) (by omega) rfl
  rw [List.drop_zero] at hmagic
  have hsplit : bytes.take protoHdrSize =
      bytes.take 2 ++ (bytes.drop 2).take 1 ++ (bytes.drop 3).take 1 ++
        (bytes.drop 4).take 4 ++ (bytes.drop 8).take 4 := by
    rw [← List.take_add, ← List.take_add, ← List.take_add, ← List.take_add,
      protoHdrSize]
  simp only [toBytes, ofBytes, UInt16.toNat_ofNat', UInt8.toNat_ofNat',
    UInt32.toNat_ofNat']
  rw [hmagic, hversion, hcmd, hseq, hlen, hsplit]

end ProtoFrameHdr

/-! ## Round trips -/

def sentFrame (hdr : ProtoFrameHdr) (payload : List UInt8) : ProtoFrame :=
  ⟨{ hdr with magic := protoMagic, version := protoVersion }, payload⟩

theorem protoEncode_ok {hdr : ProtoFrameHdr} {payload : List UInt8}
    {outCap : Nat} (hlen : payload.length = hdr.payloadLen.toNat)
    (hmax : hdr.payloadLen.toNat ≤ protoMaxPayload)
    (hcap : protoHdrSize + hdr.payloadLen.toNat ≤ outCap) :
    protoEncode hdr payload outCap =
      .ok ((sentFrame hdr payload).hdr.toBytes ++ payload) := by
  unfold protoEncode
  rw [if_neg (by omega), if_neg (by omega),
    List.take_of_length_le (Nat.le_of_eq hlen)]
  rfl

theorem protoDecode_toBytes {h : ProtoFrameHdr} {payload : List UInt8}
    (rest : List UInt8) (hmagic : h.magic = protoMagic)
    (hversion : h.version = protoVersion)
    (hmax : h.payloadLen.toNat ≤ protoMaxPayload)
    (hlen : payload.length = h.payloadLen.toNat) :
    protoDecode (h.toBytes ++ payload ++ rest) =
      .ok (⟨h, payload⟩, protoHdrSize + h.payloadLen.toNat) := by
  have hdrlen := ProtoFrameHdr.length_toBytes h
  unfold protoDecode
  rw [List.append_assoc, ProtoFrameHdr.ofBytes_toBytes, if_neg (by simp)]
  dsimp only
  rw [if_neg (by simp [hmagic]), if_neg (by simp [hversion]),
    if_neg (by omega), if_neg (by simp; omega), List.drop_left' hdrlen,
    List.take_left' hlen]

theorem protoDecode_bytes {inBuf : List UInt8} {frame : ProtoFrame}
    {total : Nat} (h : protoDecode inBuf = .ok (frame, total)) :
    frame.hdr.magic = protoMagic ∧ frame.hdr.version = protoVersion ∧
      frame.hdr.payloadLen.toNat ≤ protoMaxPayload ∧
      frame.payload.length = frame.hdr.payloadLen.toNat ∧
      frame.hdr.toBytes ++ frame.payload = inBuf.take total := by
  unfold protoDecode at h
  dsimp only at h
  split_ifs at h with hshort hmagic hversion hlen htotal
  cases h
  have hsize : protoHdrSize ≤ inBuf.length := by omega
  refine ⟨by simpa using hmagic, by simpa using hversion, by simpa using hlen,
    by simp; omega, ?_⟩
  rw [ProtoFrameHdr.toBytes_ofBytes hsize, ← List.take_add]

theorem protoEncode_of_protoDecode {inBuf : List UInt8} {frame : ProtoFrame}
    {total : Nat} (h : protoDecode inBuf = .ok (frame, total)) :
    protoEncode frame.hdr frame.payload total = .ok (inBuf.take total) := by
  rcases protoDecode_ok h with ⟨-, htotal, -⟩
  rcases protoDecode_bytes h with ⟨hmagic, hversion, hmax, hlen, hbytes⟩
  have hsame : (sentFrame frame.hdr frame.payload).hdr = frame.hdr := by
    cases hhdr : frame.hdr
    simp_all [sentFrame]
  rw [protoEncode_ok hlen hmax (by omega), hsame, hbytes]

theorem consumed_unique {a b : List UInt8} {frame : ProtoFrame}
    (ha : protoDecode a = .ok (frame, a.length))
    (hb : protoDecode b = .ok (frame, b.length)) : a = b := by
  rcases protoDecode_bytes ha with ⟨-, -, -, -, habytes⟩
  rcases protoDecode_bytes hb with ⟨-, -, -, -, hbbytes⟩
  rw [List.take_length] at habytes hbbytes
  rw [← habytes, hbbytes]

/-- A header and payload that `proto_encode` may be called with, and the bytes
it then writes. -/
structure Encodes (hdr : ProtoFrameHdr) (payload : List UInt8) (outCap : Nat)
    (out : List UInt8) : Prop where
  length_eq : payload.length = hdr.payloadLen.toNat
  encode : protoEncode hdr payload outCap = .ok out

theorem Encodes.decode {hdr : ProtoFrameHdr} {payload : List UInt8}
    {outCap : Nat} {out : List UInt8} (h : Encodes hdr payload outCap out)
    (rest : List UInt8) :
    protoDecode (out ++ rest) = .ok (sentFrame hdr payload, out.length) := by
  rcases h with ⟨hlen, hencode⟩
  have hbounds : hdr.payloadLen.toNat ≤ protoMaxPayload ∧
      protoHdrSize + hdr.payloadLen.toNat ≤ outCap := by
    unfold protoEncode at hencode
    split_ifs at hencode
    omega
  rw [protoEncode_ok hlen hbounds.1 hbounds.2, Except.ok.injEq] at hencode
  subst hencode
  have hdecode := protoDecode_toBytes (h := (sentFrame hdr payload).hdr) rest
    rfl rfl hbounds.1 hlen
  rw [hdecode, List.length_append, ProtoFrameHdr.length_toBytes, hlen]
  rfl

theorem encoding_prefix_free {hdr hdr' : ProtoFrameHdr}
    {payload payload' out out' : List UInt8} {outCap outCap' : Nat}
    (h : Encodes hdr payload outCap out)
    (h' : Encodes hdr' payload' outCap' out') (hpre : out <+: out') :
    out = out' := by
  rcases hpre with ⟨rest, rfl⟩
  have hshort := h.decode rest
  have hlong := h'.decode []
  rw [List.append_nil, hshort, Except.ok.injEq, Prod.mk.injEq] at hlong
  have hnone : rest = [] := by
    rw [← List.length_eq_zero_iff]
    simpa using hlong.2
  rw [hnone, List.append_nil]

/--
Every frame is decoded to what was encoded, whatever follows it, and every
decoded frame encodes to the bytes it was decoded from.
-/
theorem codec_bijection :
    (∀ (hdr : ProtoFrameHdr) (payload : List UInt8) (outCap : Nat)
        (rest : List UInt8),
      payload.length = hdr.payloadLen.toNat →
      payload.length ≤ protoMaxPayload →
      protoHdrSize + payload.length ≤ outCap →
        ∃ out, protoEncode hdr payload outCap = .ok out ∧
          protoDecode (out ++ rest) =
            .ok (sentFrame hdr payload, protoHdrSize + payload.length)) ∧
    (∀ (inBuf : List UInt8) (frame : ProtoFrame) (n : Nat),
      protoDecode inBuf = .ok (frame, n) →
        protoEncode frame.hdr frame.payload n = .ok (inBuf.take n)) ∧
    (∀ (a b : List UInt8) (frame : ProtoFrame),
      protoDecode a = .ok (frame, a.length) →
      protoDecode b = .ok (frame, b.length) → a = b) ∧
    ∀ (hdr hdr' : ProtoFrameHdr) (payload payload' out out' : List UInt8)
        (outCap outCap' : Nat),
      Encodes hdr payload outCap out → Encodes hdr' payload' outCap' out' →
        out <+: out' → out = out' := by
  refine ⟨?_, fun _ _ _ => protoEncode_of_protoDecode,
    fun _ _ _ => consumed_unique,
    fun _ _ _ _ _ _ _ _ => encoding_prefix_free⟩
  intro hdr payload outCap rest hlen hmax hcap
  rw [hlen] at hmax hcap
  have hencode := protoEncode_ok hlen hmax hcap
  have hdecode := Encodes.decode ⟨hlen, hencode⟩ rest
  refine ⟨_, hencode, ?_⟩
  rw [hdecode, List.length_append, ProtoFrameHdr.length_toBytes]

def Decodes (inBuf : List UInt8) : Prop := ∃ r, protoDecode inBuf = .ok r

def ProtoError.Fatal (e : ProtoError) : Prop :=
  e = .badMagic ∨ e = .badVersion ∨ e = .payloadTooLarge

theorem fatal_of_error {inBuf : List UInt8} {e : ProtoError}
    (h : protoDecode inBuf = .error e) : e = .incomplete ∨ e.Fatal := by
  unfold protoDecode at h
  dsimp only at h
  unfold ProtoError.Fatal
  split_ifs at h <;> cases h <;> simp

theorem header_of_incomplete {inBuf : List UInt8}
    (hsize : protoHdrSize ≤ inBuf.length)
    (h : protoDecode inBuf = .error .incomplete) :
    (ProtoFrameHdr.ofBytes inBuf).magic = protoMagic ∧
      (ProtoFrameHdr.ofBytes inBuf).version = protoVersion ∧
      (ProtoFrameHdr.ofBytes inBuf).payloadLen.toNat ≤ protoMaxPayload ∧
      inBuf.length <
        protoHdrSize + (ProtoFrameHdr.ofBytes inBuf).payloadLen.toNat := by
  unfold protoDecode at h
  dsimp only at h
  split_ifs at h with hshort hmagic hversion hlen htotal
  · omega
  · contradiction
  · contradiction
  · contradiction
  · exact ⟨by simpa using hmagic, by simpa using hversion,
      by simpa using hlen, htotal⟩

theorem completable_of_incomplete {inBuf : List UInt8}
    (hsize : protoHdrSize ≤ inBuf.length)
    (h : protoDecode inBuf = .error .incomplete) :
    ∃ more : List UInt8, more.length ≤ protoMaxPayload ∧
      Decodes (inBuf ++ more) := by
  rcases header_of_incomplete hsize h with ⟨hmagic, hversion, hlen, hshort⟩
  -- The missing bytes of the payload may be any bytes.
  let more : List UInt8 := List.replicate
    (protoHdrSize + (ProtoFrameHdr.ofBytes inBuf).payloadLen.toNat -
      inBuf.length) 0
  have hmore : more.length =
      protoHdrSize + (ProtoFrameHdr.ofBytes inBuf).payloadLen.toNat -
        inBuf.length := List.length_replicate
  refine ⟨more, by omega, ?_⟩
  unfold Decodes protoDecode
  rw [if_neg (by simp; omega), ProtoFrameHdr.ofBytes_append more hsize]
  dsimp only
  rw [if_neg (by simp [hmagic]), if_neg (by simp [hversion]),
    if_neg (by omega), if_neg (by rw [List.length_append]; omega)]
  exact ⟨_, rfl⟩

theorem incomplete_of_decodes_append {inBuf more : List UInt8}
    (hnot : ¬ Decodes inBuf) (h : Decodes (inBuf ++ more)) :
    protoDecode inBuf = .error .incomplete := by
  by_contra hfinal
  unfold Decodes at h
  rw [protoDecode_append more hfinal] at h
  exact hnot h

/--
A verdict other than INCOMPLETE is final; INCOMPLETE means that a payload's
worth of bytes can still make a frame of the buffer, and a fatal error that
nothing can.
-/
theorem verdicts_final (inBuf : List UInt8) :
    (inBuf.length < protoHdrSize →
      protoDecode inBuf = .error .incomplete) ∧
    (protoHdrSize ≤ inBuf.length →
      (protoDecode inBuf ≠ .error .incomplete →
        ∀ more, protoDecode (inBuf ++ more) = protoDecode inBuf) ∧
      (protoDecode inBuf = .error .incomplete ↔
        ¬ Decodes inBuf ∧ ∃ more : List UInt8,
          more.length ≤ protoMaxPayload ∧ Decodes (inBuf ++ more)) ∧
      ((∃ e, protoDecode inBuf = .error e ∧ e.Fatal) ↔
        ∀ more, ¬ Decodes (inBuf ++ more))) := by
  constructor
  · intro hshort
    rw [protoDecode, if_pos hshort]
  intro hsize
  refine ⟨fun hfinal more => protoDecode_append more hfinal, ?_, ?_⟩
  · constructor
    · intro hincomplete
      refine ⟨?_, completable_of_incomplete hsize hincomplete⟩
      rintro ⟨r, hr⟩
      rw [hincomplete] at hr
      contradiction
    · rintro ⟨hnot, more, -, hmore⟩
      exact incomplete_of_decodes_append hnot hmore
  · constructor
    · rintro ⟨e, herror, hfatal⟩ more ⟨r, hr⟩
      have hfinal : protoDecode inBuf ≠ .error .incomplete := by
        rw [herror]
        rcases hfatal with rfl | rfl | rfl <;> simp
      rw [protoDecode_append more hfinal, herror] at hr
      contradiction
    · intro hnever
      cases hdecode : protoDecode inBuf with
      | ok r => exact absurd ⟨r, by simpa using hdecode⟩ (hnever [])
      | error e =>
          rcases fatal_of_error hdecode with rfl | hfatal
          · rcases completable_of_incomplete hsize hdecode with
              ⟨more, -, hmore⟩
            exact absurd hmore (hnever more)
          · exact ⟨e, rfl, hfatal⟩

end EzRouter
