import ByteScope.Codec.Utf8

/-!
# UTF-8 that was written is well-formed

The bytes of a character are found at the front of any bytes that they begin, so the bytes of a text have no
fault and stand for that text.
-/

namespace ByteScope.Utf8

theorem toNat_ofNat {n : Nat} (h : n < 256) : (UInt8.ofNat n).toNat = n :=
  UInt8.toNat_ofNat_of_lt' h

theorem trailLength_cons {low high : Nat} {b : UInt8} (h : low ≤ b.toNat ∧ b.toNat ≤ high) (n : Nat) (rest : Bytes) :
    trailLength low high (n + 1) (b :: rest) = trailLength 0x80 0xBF n rest + 1 := by
  rw [trailLength, if_pos h]

/-- Bytes that all go on with a character. -/
theorem trailLength_append (tail : Bytes) : ∀ {bs : Bytes}, (∀ b ∈ bs, 0x80 ≤ b.toNat ∧ b.toNat ≤ 0xBF) →
    trailLength 0x80 0xBF bs.length (bs ++ tail) = bs.length
  | [], _ => by simp [trailLength]
  | b :: bs, h => by
    rw [List.length_cons, List.cons_append, trailLength_cons (h b List.mem_cons_self),
      trailLength_append tail fun b hb => h b (List.mem_cons_of_mem _ hb)]

/-- A lead byte, a second byte in the range that the lead announces and the further ones make a character. -/
theorem front_of_lead {b second : UInt8} {lead : Lead} (more tail : Bytes) (hb : 0x80 ≤ b.toNat)
    (hlead : lead? b.toNat = some lead) (hwidth : lead.width = more.length + 2)
    (hsecond : lead.low ≤ second.toNat ∧ second.toNat ≤ lead.high)
    (hmore : ∀ b ∈ more, 0x80 ≤ b.toNat ∧ b.toNat ≤ 0xBF) :
    front b (second :: more ++ tail) = .char (.ofNat (codePoint b.toNat (second :: more))) (more.length + 2) := by
  have htrail : trailLength lead.low lead.high (lead.width - 1) (second :: more ++ tail) = more.length + 1 := by
    rw [hwidth, Nat.add_sub_assoc (by omega), List.cons_append, trailLength_cons hsecond, trailLength_append tail hmore]
  unfold front
  rw [if_neg (by omega), hlead]
  simp only [htrail]
  rw [if_pos hwidth.symm, hwidth, List.take_left' (by simp)]

theorem codePoint_two {v : Nat} (h : v < 0x800) :
    codePoint (v / 64 % 32 + 192) [.ofNat (v % 64 + 128)] = v := by
  simp only [codePoint, List.foldl_cons, List.foldl_nil]
  rw [if_pos (by omega), toNat_ofNat (by omega)]
  omega

theorem codePoint_three {v : Nat} (h : v < 0x10000) :
    codePoint (v / 4096 % 16 + 224) [.ofNat (v / 64 % 64 + 128), .ofNat (v % 64 + 128)] = v := by
  simp only [codePoint, List.foldl_cons, List.foldl_nil]
  rw [if_neg (by omega), if_pos (by omega), toNat_ofNat (by omega), toNat_ofNat (by omega)]
  omega

theorem codePoint_four {v : Nat} (h : v < 0x110000) :
    codePoint (v / 262144 % 8 + 240)
      [.ofNat (v / 4096 % 64 + 128), .ofNat (v / 64 % 64 + 128), .ofNat (v % 64 + 128)] = v := by
  simp only [codePoint, List.foldl_cons, List.foldl_nil]
  rw [if_neg (by omega), if_neg (by omega), toNat_ofNat (by omega), toNat_ofNat (by omega), toNat_ofNat (by omega)]
  omega

theorem lead?_two {b : Nat} (h : 0xC2 ≤ b ∧ b ≤ 0xDF) : lead? b = some ⟨2, 0x80, 0xBF⟩ := by
  unfold lead?
  rw [if_pos h]

/-- The second byte of three keeps out overlong forms and surrogates. -/
theorem lead?_three {v : Nat} (hlow : 0x800 ≤ v) (hhigh : v < 0x10000) (hvalid : v < 0xD800 ∨ 0xDFFF < v) :
    ∃ low high, lead? (v / 4096 % 16 + 224) = some ⟨3, low, high⟩ ∧
      low ≤ v / 64 % 64 + 128 ∧ v / 64 % 64 + 128 ≤ high := by
  unfold lead?
  rw [if_neg (by omega)]
  split
  · exact ⟨_, _, rfl, by omega, by omega⟩
  split
  · exact ⟨_, _, rfl, by omega, by omega⟩
  · rw [if_pos (by omega)]
    exact ⟨_, _, rfl, by omega, by omega⟩

/-- The second byte of four keeps out overlong forms and numbers past the last one. -/
theorem lead?_four {v : Nat} (hlow : 0x10000 ≤ v) (hhigh : v < 0x110000) :
    ∃ low high, lead? (v / 262144 % 8 + 240) = some ⟨4, low, high⟩ ∧
      low ≤ v / 4096 % 64 + 128 ∧ v / 4096 % 64 + 128 ≤ high := by
  unfold lead?
  rw [if_neg (by omega), if_neg (by omega), if_neg (by omega), if_neg (by omega)]
  split
  · exact ⟨_, _, rfl, by omega, by omega⟩
  split
  · exact ⟨_, _, rfl, by omega, by omega⟩
  · rw [if_pos (by omega)]
    exact ⟨_, _, rfl, by omega, by omega⟩

theorem trail_range (n : Nat) : 0x80 ≤ (UInt8.ofNat (n % 64 + 128)).toNat ∧
    (UInt8.ofNat (n % 64 + 128)).toNat ≤ 0xBF := by
  rw [toNat_ofNat (by omega)]
  omega

theorem front_one {v : Nat} (h : v < 0x80) (tail : Bytes) : front (.ofNat v) tail = .char (.ofNat v) 1 := by
  unfold front
  rw [toNat_ofNat (by omega), if_pos h]

theorem front_two {v : Nat} (h : 0x80 ≤ v) (h' : v < 0x800) (tail : Bytes) :
    front (.ofNat (v / 64 % 32 + 192)) ([.ofNat (v % 64 + 128)] ++ tail) = .char (.ofNat v) 2 := by
  have hb : (UInt8.ofNat (v / 64 % 32 + 192)).toNat = v / 64 % 32 + 192 := toNat_ofNat (by omega)
  rw [front_of_lead [] tail (by omega) (lead?_two (by omega)) rfl (trail_range v) (by simp), hb,
    codePoint_two h']
  rfl

theorem front_three {v : Nat} (h : 0x800 ≤ v) (h' : v < 0x10000) (hvalid : v < 0xD800 ∨ 0xDFFF < v) (tail : Bytes) :
    front (.ofNat (v / 4096 % 16 + 224)) ([.ofNat (v / 64 % 64 + 128), .ofNat (v % 64 + 128)] ++ tail) =
      .char (.ofNat v) 3 := by
  obtain ⟨low, high, hlead, hsecond⟩ := lead?_three h h' hvalid
  have hb : (UInt8.ofNat (v / 4096 % 16 + 224)).toNat = v / 4096 % 16 + 224 := toNat_ofNat (by omega)
  have hs : (UInt8.ofNat (v / 64 % 64 + 128)).toNat = v / 64 % 64 + 128 := toNat_ofNat (by omega)
  rw [← hb] at hlead
  rw [← hs] at hsecond
  rw [front_of_lead [_] tail (by omega) hlead rfl hsecond (by simpa using trail_range v), hb,
    codePoint_three h']
  rfl

theorem front_four {v : Nat} (h : 0x10000 ≤ v) (h' : v < 0x110000) (tail : Bytes) :
    front (.ofNat (v / 262144 % 8 + 240))
      ([.ofNat (v / 4096 % 64 + 128), .ofNat (v / 64 % 64 + 128), .ofNat (v % 64 + 128)] ++ tail) =
        .char (.ofNat v) 4 := by
  obtain ⟨low, high, hlead, hsecond⟩ := lead?_four h h'
  have hb : (UInt8.ofNat (v / 262144 % 8 + 240)).toNat = v / 262144 % 8 + 240 := toNat_ofNat (by omega)
  have hs : (UInt8.ofNat (v / 4096 % 64 + 128)).toNat = v / 4096 % 64 + 128 := toNat_ofNat (by omega)
  rw [← hb] at hlead
  rw [← hs] at hsecond
  rw [front_of_lead [_, _] tail (by omega) hlead rfl hsecond
    (by simpa using ⟨trail_range (v / 64), trail_range v⟩), hb, codePoint_four h']
  rfl

/-- The bytes of a character, before any others, are read as that character. -/
theorem front_utf8EncodeChar (c : Char) : ∃ b rest, String.utf8EncodeChar c = b :: rest ∧
    ∀ tail, front b (rest ++ tail) = .char c (rest.length + 1) := by
  have hc : Char.ofNat c.val.toNat = c := Char.ofNat_toNat c
  have hvalid : c.val.toNat < 0xD800 ∨ (0xDFFF < c.val.toNat ∧ c.val.toNat < 0x110000) := c.valid
  rw [String.utf8EncodeChar.eq_1]
  split
  · exact ⟨_, _, rfl, fun tail => (front_one (by omega) tail).trans (by rw [hc]; rfl)⟩
  split
  · exact ⟨_, _, rfl, fun tail => (front_two (by omega) (by omega) tail).trans (by rw [hc]; rfl)⟩
  split
  · exact ⟨_, _, rfl, fun tail => (front_three (by omega) (by omega) (by omega) tail).trans (by rw [hc]; rfl)⟩
  · exact ⟨_, _, rfl, fun tail => (front_four (by omega) (by omega) tail).trans (by rw [hc]; rfl)⟩

theorem decodeFrom_skip (tail : Bytes) : ∀ bs : Bytes, decodeFrom bs.length (bs ++ tail) = decodeFrom 0 tail
  | [] => rfl
  | _ :: bs => decodeFrom_skip tail bs

theorem faultFrom_skip (tail : Bytes) : ∀ (bs : Bytes) (pos : Nat),
    faultFrom bs.length pos (bs ++ tail) = faultFrom 0 (pos + bs.length) tail
  | [], _ => rfl
  | b :: bs, pos => by
    rw [List.length_cons, List.cons_append, faultFrom, faultFrom_skip tail bs]
    congr 1; omega

theorem decodeFrom_encode : ∀ cs : List Char, decodeFrom 0 (cs.flatMap String.utf8EncodeChar) = cs
  | [] => rfl
  | c :: cs => by
    obtain ⟨b, rest, hbytes, hfront⟩ := front_utf8EncodeChar c
    rw [List.flatMap_cons, hbytes, List.cons_append, decodeFrom, hfront]
    simp only [Nat.add_sub_cancel]
    rw [decodeFrom_skip, decodeFrom_encode cs]

theorem faultFrom_encode : ∀ (cs : List Char) (pos : Nat), faultFrom 0 pos (cs.flatMap String.utf8EncodeChar) = none
  | [], _ => rfl
  | c :: cs, pos => by
    obtain ⟨b, rest, hbytes, hfront⟩ := front_utf8EncodeChar c
    rw [List.flatMap_cons, hbytes, List.cons_append, faultFrom, hfront]
    simp only [Nat.add_sub_cancel]
    rw [faultFrom_skip, faultFrom_encode cs]

theorem decode?_encode (s : String) : decode? (encode s) = .ok s := by
  unfold decode? fault? decode encode
  rw [faultFrom_encode, decodeFrom_encode, String.ofList_toList]

end ByteScope.Utf8
