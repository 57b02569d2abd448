import Depgraph.Protocol.DeltaRequest
import Depgraph.Query.Page

/-!
# Cursors

A cursor that was made for a context is read back as its offset (`decode_encode`), and its length
depends on its offset only through the number of its digits (`escapedSize_encode`).
-/

namespace Query

open Json Protocol

/-! ### Hexadecimal texts -/

theorem hexDigit_spec : ∀ n < 16, hexDigit n ≠ ':' ∧ hexDigit n ≠ '.' ∧
    textSize (escapeChar (hexDigit n)) = 1 := by
  decide

theorem mem_toHex {d : Digest} {c : Char} (h : c ∈ d.toHex.toList) : ∃ n < 16, c = hexDigit n := by
  rw [Digest.toHex, String.toList_ofList, List.mem_flatMap] at h
  obtain ⟨b, -, hc⟩ := h
  have hb : b.toNat < 256 := b.toNat_lt
  simp only [List.mem_cons, List.not_mem_nil, or_false] at hc
  rcases hc with rfl | rfl
  · exact ⟨_, by omega, rfl⟩
  · exact ⟨_, by omega, rfl⟩

theorem escapedSize_toHex (d : Digest) : escapedSize d.toHex = 64 := by
  have key (bytes : List UInt8) : textSize ((bytes.flatMap fun b =>
      [hexDigit (b.toNat / 16), hexDigit (b.toNat % 16)]).flatMap escapeChar) =
        2 * bytes.length := by
    induction bytes with
    | nil => rfl
    | cons b bytes ih =>
      have hb : b.toNat < 256 := b.toNat_lt
      have hhigh := (hexDigit_spec (b.toNat / 16) (by omega)).2.2
      have hlow := (hexDigit_spec (b.toNat % 16) (by omega)).2.2
      simp only [List.flatMap_cons, List.flatMap_append, textSize_append, ih, List.length_cons,
        List.flatMap_nil, textSize_nil, hhigh, hlow]
      omega
  rw [escapedSize, Digest.toHex, String.toList_ofList, key, d.size]

/-! ### Signatures -/

variable (S : StableIds) (contextDigest : String)

theorem splitAt_joined {separator : Char} {parts : List String} (hne : parts ≠ [])
    (h : ∀ part ∈ parts, separator ∉ part.toList) :
    splitAt separator (String.ofList ([separator].intercalate (parts.map String.toList))) =
      parts := by
  rw [splitAt, String.toList_ofList, List.splitOn_intercalate separator (by simpa using h)
    (by simpa using hne), List.map_map, String.ofList_comp_toList, List.map_id]

/-- The signature of a cursor is the digest in its stable identity. -/
theorem exists_cursorSignature (offset : Nat) :
    ∃ d : Digest, cursorSignature S contextDigest offset = d.toHex := by
  have hsplit (d : Digest) : splitAt ':' ("interactive-query-cursor" ++ ":sha256:" ++ d.toHex) =
      ["interactive-query-cursor", "sha256", d.toHex] := by
    have hjoin : "interactive-query-cursor" ++ ":sha256:" ++ d.toHex = String.ofList
        ([':'].intercalate
          (["interactive-query-cursor", "sha256", d.toHex].map String.toList)) := by
      apply String.toList_injective
      simp [List.intercalate]
    rw [hjoin]
    refine splitAt_joined (by simp) fun part hpart => ?_
    simp only [List.mem_cons, List.not_mem_nil, or_false] at hpart
    rcases hpart with rfl | rfl | rfl
    · decide
    · decide
    · intro hmem
      obtain ⟨n, hn, hc⟩ := mem_toHex hmem
      exact (hexDigit_spec n hn).1 hc.symm
  refine ⟨S.sha256 (utf8 (canonicalJson S.floatText (.object
    [("context_digest", .string contextDigest), ("offset", natValue offset)]))), ?_⟩
  rw [cursorSignature, cursorIdentity, StableIds.stableIdFromValue, hsplit]
  rfl

/-- The length of a cursor between its quotes. -/
theorem escapedSize_encode (offset : Nat) :
    escapedSize (encodeInteractiveQueryCursor S contextDigest offset) =
      escapedSize interactiveQueryCursorPrefix + 2 * escapedSize "." + digits offset + 64 := by
  obtain ⟨d, hd⟩ := exists_cursorSignature S contextDigest offset
  rw [encodeInteractiveQueryCursor, hd]
  simp only [escapedSize_append, escapedSize_toString, escapedSize_toHex]
  omega

/-! ### Reading a cursor back -/

theorem parseUsize_repr {n : Nat} (h : n < 2 ^ 64) : parseUsize n.repr = some n := by
  have hdigit (c : Char) (hc : c ∈ Nat.toDigits 10 n) : c.isDigit = true :=
    Nat.isDigit_of_mem_toDigits (by omega) (by omega) hc
  have hvalue : (Nat.toDigits 10 n).foldl (fun n c => 10 * n + digitValue c) 0 = n :=
    Nat.ofDigitChars_eq_foldl.symm.trans Nat.ofDigitChars_ten_toDigits
  have hplus (rest : List Char) : Nat.toDigits 10 n ≠ '+' :: rest := fun hrest =>
    absurd (hdigit '+' (hrest ▸ List.mem_cons_self)) (by decide)
  -- The digits do not begin with the sign that the parser skips.
  rw [parseUsize, Nat.toList_repr]
  simp only [hvalue]
  rw [if_neg]
  rintro (hnil | hall | hlarge)
  · exact Nat.toDigits_ne_nil hnil
  · rw [List.all_eq_true.2 hdigit] at hall
    cases hall
  · omega

/-- **A cursor is read back as its offset.** -/
theorem decode_encode {offset : Nat} (h : offset < 2 ^ 64) :
    decodeInteractiveQueryCursor S (encodeInteractiveQueryCursor S contextDigest offset)
      contextDigest = .ok offset := by
  obtain ⟨d, hd⟩ := exists_cursorSignature S contextDigest offset
  have hjoin : encodeInteractiveQueryCursor S contextDigest offset = String.ofList
      (['.'].intercalate ([interactiveQueryCursorPrefix, toString offset, d.toHex].map
        String.toList)) := by
    apply String.toList_injective
    rw [encodeInteractiveQueryCursor, hd]
    simp [List.intercalate]
  have hsplit : splitAt '.' (encodeInteractiveQueryCursor S contextDigest offset) =
      [interactiveQueryCursorPrefix, toString offset, d.toHex] := by
    rw [hjoin]
    refine splitAt_joined (by simp) fun part hpart => ?_
    simp only [List.mem_cons, List.not_mem_nil, or_false] at hpart
    rcases hpart with rfl | rfl | rfl
    · decide
    · intro hmem
      rw [Nat.toString_eq_ofList_toDigits, String.toList_ofList] at hmem
      exact absurd (Nat.isDigit_of_mem_toDigits (by omega) (by omega) hmem) (by decide)
    · intro hmem
      obtain ⟨n, hn, hc⟩ := mem_toHex hmem
      exact (hexDigit_spec n hn).2.1 hc.symm
  rw [decodeInteractiveQueryCursor, hsplit]
  simp [isSha256Hex_toHex, parseUsize_repr h]

end Query
