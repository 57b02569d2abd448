import Depgraph.Library.Replaced
import Depgraph.Query.Cursor

/-!
# The bytes of a page

* `stabilize_ok`: the number of bytes in a page is the least number that is the length of the page
  with this number in it; the loop finds it in five rounds.
* `pageBase_build_mono`: a page with one more item and items after it is no shorter, unless a
  diagnostic of the request looks like the one of a truncated page.
-/

namespace Query

open Json Protocol SortDedup

variable {T : Type} (itemValue : T → Value) (F : FloatText)

/-- What a page takes beside the number of its bytes. -/
def pageBase (page : InteractiveQueryPage T) : Nat :=
  serializedPageLen itemValue F { page with serializedOutputBytes := 0 } - 1

theorem serializedPageLen_eq_enclosed (page : InteractiveQueryPage T) :
    serializedPageLen itemValue F page =
      enclosed ((page.members itemValue).map (memberSize F)) := by
  rw [serializedPageLen, utf8ByteSize_canonicalJson, InteractiveQueryPage.toValue,
    size_canonical_object]

theorem memberSize_nat (key : String) (n : Nat) :
    memberSize F (key, natValue n) = textSize (stringText key) + 1 + digits n := by
  rw [memberSize, natValue, size_canonical_nat]

theorem memberSize_string (key s : String) :
    memberSize F (key, .string s) = textSize (stringText key) + 1 + (escapedSize s + 2) := by
  rw [memberSize, size_canonical_string]

theorem enclosed_of_ne_nil {sizes : List Nat} (h : sizes ≠ []) :
    enclosed sizes = 1 + (sizes.map (· + 1)).sum := by
  rw [← one_add_ite_eq_enclosed, if_neg h]

/-- The length of a page, as a sum. -/
theorem serializedPageLen_eq_sum (page : InteractiveQueryPage T) :
    serializedPageLen itemValue F page =
      1 + (((page.members itemValue).map (memberSize F)).map (· + 1)).sum := by
  rw [serializedPageLen_eq_enclosed, enclosed_of_ne_nil]
  simp [InteractiveQueryPage.members]

theorem serializedPageLen_eq (page : InteractiveQueryPage T) (s : Nat) :
    serializedPageLen itemValue F { page with serializedOutputBytes := s } =
      pageBase itemValue F page + digits s := by
  have hzero : digits 0 = 1 := rfl
  rw [pageBase, serializedPageLen_eq_sum, serializedPageLen_eq_sum]
  simp only [InteractiveQueryPage.members, List.map_append, List.map_cons, List.map_nil,
    List.sum_append, List.sum_cons, List.sum_nil, memberSize_nat, hzero]
  omega

/-! ### The number of bytes -/

theorem stabilizeFor_succ (rounds : Nat) (page : InteractiveQueryPage T) (s : Nat) :
    stabilizeFor itemValue F (rounds + 1) { page with serializedOutputBytes := s } =
      if s = pageBase itemValue F page + digits s then
        .ok { page with serializedOutputBytes := s }
      else stabilizeFor itemValue F rounds
        { page with serializedOutputBytes := pageBase itemValue F page + digits s } := by
  rw [stabilizeFor, serializedPageLen_eq]

/-- The number of digits of a length settles after at most one more digit. -/
theorem digits_settle (base : Nat) :
    base + digits (base + 1) = base + digits (base + digits (base + 1)) ∨
      base + digits (base + digits (base + 1)) =
        base + digits (base + digits (base + digits (base + 1))) := by
  have hpos := digits_pos (base + 1)
  have hlt := lt_pow_digits (base + 1)
  have hlower : digits (base + 1) ≤ digits (base + digits (base + 1)) := digits_mono (by omega)
  have hnext : digits (base + digits (base + 1)) ≤
      digits (base + digits (base + digits (base + 1))) := digits_mono (by omega)
  generalize digits (base + 1) = d at *
  have hpow : d < 10 ^ d := Nat.lt_pow_self (by omega)
  have hsucc : 10 ^ (d + 1) = 10 * 10 ^ d := by rw [pow_succ, Nat.mul_comm]
  have hupper (n : Nat) (hn : n ≤ d + 1) : digits (base + n) ≤ d + 1 :=
    (digits_le_iff (by omega)).2 (by omega)
  have hone := hupper d (by omega)
  have htwo := hupper _ hone
  omega

/-- A number of bytes that a page may hold bounds what the loop writes. -/
theorem base_add_digits_le {base b t s' : Nat} (hb : base ≤ b) (hs : s' = b + digits s')
    (ht : t ≤ s') : base + digits t ≤ s' := by
  have := digits_mono ht
  omega

/-- **The loop finds the length of the page with its length in it**, the least there is. -/
theorem stabilize_ok (page : InteractiveQueryPage T) (h : page.serializedOutputBytes = 0) :
    ∃ s, stabilizeSerializedOutputBytes itemValue F page =
        .ok { page with serializedOutputBytes := s } ∧
      s = pageBase itemValue F page + digits s ∧
      ∀ b s', pageBase itemValue F page ≤ b → s' = b + digits s' → s ≤ s' := by
  have hone : digits 0 = 1 := rfl
  have hstart : stabilizeSerializedOutputBytes itemValue F page =
      stabilizeFor itemValue F 7
        { page with serializedOutputBytes := pageBase itemValue F page + 1 } := by
    have := stabilizeFor_succ itemValue F 7 page 0
    rw [if_neg (by omega), hone, ← h] at this
    exact this
  have hsettle := digits_settle (pageBase itemValue F page)
  have hlow {b s' : Nat} (hb : pageBase itemValue F page ≤ b) (hs : s' = b + digits s') :
      pageBase itemValue F page + 1 ≤ s' := base_add_digits_le hb hs (Nat.zero_le s')
  rw [hstart, stabilizeFor_succ]
  by_cases h1 : pageBase itemValue F page + 1 =
      pageBase itemValue F page + digits (pageBase itemValue F page + 1)
  · rw [if_pos h1]
    exact ⟨_, rfl, h1, fun b s' hb hs => hlow hb hs⟩
  rw [if_neg h1, stabilizeFor_succ]
  rcases Decidable.em (pageBase itemValue F page + digits (pageBase itemValue F page + 1) =
    pageBase itemValue F page +
      digits (pageBase itemValue F page + digits (pageBase itemValue F page + 1))) with h2 | h2
  · rw [if_pos h2]
    exact ⟨_, rfl, h2, fun b s' hb hs => base_add_digits_le hb hs (hlow hb hs)⟩
  · have h3 := hsettle.resolve_left h2
    rw [if_neg h2, stabilizeFor_succ, if_pos h3]
    exact ⟨_, rfl, h3, fun b s' hb hs =>
      base_add_digits_le hb hs (base_add_digits_le hb hs (hlow hb hs))⟩

/-! ### One more item -/

theorem enclosed_le_append (a b : List Nat) : enclosed a ≤ enclosed (a ++ b) := by
  simp only [enclosed, List.map_append, List.sum_append]
  omega

theorem size_diagnostic_mono {a b : QueryPageDiagnostic} (hcode : a.code = b.code)
    (hmessage : escapedSize a.message ≤ escapedSize b.message)
    (hrest : a.remediation = b.remediation) :
    canonicalSize F a.toValue ≤ canonicalSize F b.toValue := by
  rw [QueryPageDiagnostic.toValue, QueryPageDiagnostic.toValue, size_canonical_object,
    size_canonical_object, hcode, hrest]
  refine enclosed_mono (.cons le_rfl (.cons ?_ (.cons le_rfl .nil)))
  rw [memberSize_string, memberSize_string]
  omega

theorem size_outputTruncated_mono (offset : Nat) {count count' : Nat} (h : count ≤ count') :
    canonicalSize F (outputTruncated count offset).toValue ≤
      canonicalSize F (outputTruncated count' offset).toValue := by
  refine size_diagnostic_mono F rfl ?_ rfl
  simp only [outputTruncated, escapedSize_append, escapedSize_toString]
  have := digits_mono h
  omega

theorem apart_outputTruncated {d : QueryPageDiagnostic} (h : d.code ≠ "QUERY_OUTPUT_TRUNCATED")
    (count count' offset : Nat) :
    Apart QueryPageDiagnostic.sortKey (outputTruncated count offset) (outputTruncated count' offset)
      d := by
  refine ⟨fun heq => h (heq ▸ rfl), fun heq => h (heq ▸ rfl), ?_⟩
  have hcode : d.code ≠ (outputTruncated count offset).code := h
  have hcode' : d.code ≠ (outputTruncated count' offset).code := h
  -- The codes differ, so that the messages are not compared.
  simp only [QueryPageDiagnostic.sortKey, Prod.Lex.toLex_le_toLex, hcode, hcode', false_and,
    or_false]
  rfl

/-- The diagnostics of a truncated page do not get shorter with its count. -/
theorem size_diagnostics_mono {diagnostics : List QueryPageDiagnostic}
    (h : ∀ d ∈ diagnostics, d.code ≠ "QUERY_OUTPUT_TRUNCATED") (offset : Nat) {count count' : Nat}
    (hle : count ≤ count') :
    canonicalSize F (.array ((canonicalDiagnostics (diagnostics ++
        [outputTruncated count offset])).map QueryPageDiagnostic.toValue)) ≤
      canonicalSize F (.array ((canonicalDiagnostics (diagnostics ++
        [outputTruncated count' offset])).map QueryPageDiagnostic.toValue)) := by
  rw [size_canonical_array, size_canonical_array, List.map_map, List.map_map]
  refine enclosed_mono (List.forall₂_map_left_iff.2 (List.forall₂_map_right_iff.2 ?_))
  refine (Replaced.sortDedup fun d hd =>
    apart_outputTruncated (h d hd) count count' offset).imp fun a b hab => ?_
  rcases hab with ⟨rfl, -, -⟩ | ⟨rfl, rfl⟩
  · exact le_rfl
  · exact size_outputTruncated_mono F offset hle

variable (S : StableIds) (items : List T) (summary : InteractiveQuerySummary)
  (request : InteractiveQueryPageRequest) (contextDigest : String) (offset : Nat)

/-- **A truncated page with more items is no shorter.** -/
theorem pageBase_build_mono
    (h : ∀ d ∈ request.diagnostics, d.code ≠ "QUERY_OUTPUT_TRUNCATED") {count count' : Nat}
    (hle : count ≤ count') (hlt : offset + count' < items.length) :
    pageBase itemValue F
        (buildInteractiveQueryPage S items summary request contextDigest offset count false) ≤
      pageBase itemValue F
        (buildInteractiveQueryPage S items summary request contextDigest offset count' false) := by
  have hlt' : offset + count < items.length := by omega
  have hreturned := digits_mono hle
  have hdiagnostics := size_diagnostics_mono F h offset hle
  have hcursor := digits_mono (Nat.add_le_add_left hle offset)
  have hitems : canonicalSize F (.array (((items.drop offset).take count).map itemValue)) ≤
      canonicalSize F (.array (((items.drop offset).take count').map itemValue)) := by
    rw [size_canonical_array, size_canonical_array, List.map_map, List.map_map]
    obtain ⟨rest, hrest⟩ := List.take_prefix_take_left (l := items.drop offset) hle
    rw [← hrest, List.map_append]
    exact enclosed_le_append _ _
  refine Nat.sub_le_sub_right ?_ 1
  rw [serializedPageLen_eq_sum, serializedPageLen_eq_sum]
  simp only [InteractiveQueryPage.members, buildInteractiveQueryPage, hlt, hlt', decide_true,
    Bool.false_eq_true, if_false, if_true, Bool.and_self, Bool.not_false, Option.map_some,
    optionalMember, Option.toList_some, List.map_append, List.map_cons, List.map_nil,
    List.sum_append, List.sum_cons, List.sum_nil, memberSize_nat, memberSize_string,
    escapedSize_encode]
  simp only [memberSize]
  omega

end Query
