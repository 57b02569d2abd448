import Depgraph.Query.PageSize

/-!
# Following the cursors of a query

* `searchCount_ok`: the search finds the largest count that fits, when all smaller counts fit.
* `paginate_at`: what one page holds (`PageAt`).
* `Iteration`: the pages that are obtained by feeding every cursor back. They hold the items in
  order, each of them once (`paginateInteractiveQuery_delivers`).
-/

namespace Query

open Json Protocol SortDedup Fallible

/-! ### The search -/

section SearchCount

variable {fits : Nat → Except String Bool} {A : Prop} {P : Nat → Prop} [DecidablePred P]

/-- A count up to a bound that is zero or has the property, and under an assumption the largest. -/
def IsLargest (A : Prop) (P : Nat → Prop) (top n : Nat) : Prop :=
  n ≤ top ∧ (n = 0 ∨ P n) ∧ (A → ∀ k, n < k → k ≤ top → ¬P k)

/-- **The search finds the largest count**, when the property passes to smaller counts. -/
theorem searchCount_ok (hfits : ∀ k, fits k = .ok (decide (P k))) {top : Nat}
    (hanti : A → ∀ j k, j ≤ k → k ≤ top → P k → P j) {low high : Nat} (hle : low ≤ high)
    (htop : high ≤ top) (hlow : low = 0 ∨ P low) (hhigh : A → ∀ k, high < k → k ≤ top → ¬P k) :
    ∃ n, searchCount fits low high = .ok n ∧ IsLargest A P top n := by
  induction hn : high - low using Nat.strong_induction_on generalizing low high with
  | _ n ih =>
    rw [searchCount]
    by_cases hlt : low < high
    · have hmiddle : low < low + (high - low + 1) / 2 ∧ low + (high - low + 1) / 2 ≤ high := by
        omega
      obtain ⟨hone, htwo⟩ := hmiddle
      generalize low + (high - low + 1) / 2 = count at *
      simp only [if_pos hlt, hfits, ok_bind, decide_eq_true_eq]
      by_cases hcount : P count
      · rw [if_pos hcount]
        exact ih _ (by omega) htwo htop (Or.inr hcount) hhigh rfl
      · rw [if_neg hcount]
        refine ih _ (by omega) (by omega) (by omega) hlow (fun hA k hk hkt hPk => ?_) rfl
        exact hcount (hanti hA count k (by omega) hkt hPk)
    · rw [if_neg hlt]
      exact ⟨low, rfl, by omega, hlow, fun hA k hk => hhigh hA k (by omega)⟩

end SearchCount

/-! ### One page -/

section Pages

variable {T : Type} (itemValue : T → Value) (S : StableIds) (items : List T)
  (summary : InteractiveQuerySummary) (request : InteractiveQueryPageRequest)

/-- A page of a number of items fits in the budget of bytes. -/
def PageFits (offset count : Nat) : Prop :=
  ∃ page, stablePage itemValue S items summary request offset count false = .ok page ∧
    page.serializedOutputBytes ≤ request.maxBytes

theorem stablePage_ok (offset count : Nat) (exceeds : Bool) :
    ∃ s, stablePage itemValue S items summary request offset count exceeds = .ok
        { buildInteractiveQueryPage S items summary request (interactiveQueryContext S request)
            offset count exceeds with serializedOutputBytes := s } ∧
      s = pageBase itemValue S.floatText (buildInteractiveQueryPage S items summary request
        (interactiveQueryContext S request) offset count exceeds) + digits s ∧
      ∀ b s', pageBase itemValue S.floatText (buildInteractiveQueryPage S items summary request
        (interactiveQueryContext S request) offset count exceeds) ≤ b →
          s' = b + digits s' → s ≤ s' :=
  stabilize_ok itemValue S.floatText _ rfl

/-- No diagnostic of the request is like the one of a truncated page. The diagnostics of a traversal
have another code. -/
def Untruncated : Prop := ∀ d ∈ request.diagnostics, d.code ≠ "QUERY_OUTPUT_TRUNCATED"

/-- **Fewer items fit when more do**, while there are items after them. -/
theorem PageFits.of_le (h : Untruncated request)
    {offset count count' : Nat} (hle : count ≤ count') (hlt : offset + count' < items.length)
    (hfits : PageFits itemValue S items summary request offset count') :
    PageFits itemValue S items summary request offset count := by
  obtain ⟨page, hpage, hbytes⟩ := hfits
  obtain ⟨s', hs', heq', -⟩ := stablePage_ok itemValue S items summary request offset count' false
  obtain ⟨s, hs, -, hleast⟩ := stablePage_ok itemValue S items summary request offset count false
  have hsame := Except.ok.inj (hpage.symm.trans hs')
  have hmono := pageBase_build_mono itemValue S.floatText S items summary request
    (interactiveQueryContext S request) offset h hle hlt
  refine ⟨_, hs, (hleast _ s' hmono heq').trans ?_⟩
  rw [hsame] at hbytes
  exact hbytes

/-- The length of a page is the number in it. -/
theorem stablePage_bytes {offset count : Nat} {exceeds : Bool} {page : InteractiveQueryPage T}
    (h : stablePage itemValue S items summary request offset count exceeds = .ok page) :
    page.serializedOutputBytes =
      (canonicalJson S.floatText (page.toValue itemValue)).utf8ByteSize := by
  obtain ⟨s, hs, heq, -⟩ := stablePage_ok itemValue S items summary request offset count exceeds
  rw [Except.ok.inj (h.symm.trans hs)]
  exact heq.trans (serializedPageLen_eq itemValue S.floatText _ s).symm

/-- **The chosen count is the largest whose page fits**, or none does. -/
theorem chosenCount_ok {offset : Nat} (hoffset : offset ≤ items.length) :
    ∃ n, chosenCount itemValue S items summary request offset = .ok n ∧
      IsLargest (Untruncated request) (PageFits itemValue S items summary request offset)
        (min request.maxItems (items.length - offset)) n := by
  classical
  have hpage (k : Nat) := stablePage_ok itemValue S items summary request offset k false
  have hfits (k : Nat) : (do
      let page ← stablePage itemValue S items summary request offset k false
      return decide (page.serializedOutputBytes ≤ request.maxBytes) : Except String Bool) =
        .ok (decide (PageFits itemValue S items summary request offset k)) := by
    obtain ⟨s, hs, -⟩ := hpage k
    have hiff : PageFits itemValue S items summary request offset k ↔ s ≤ request.maxBytes := by
      rw [PageFits, hs]
      simp
    rw [hs, decide_eq_decide.2 hiff]
    rfl
  generalize hmaximum : min request.maxItems (items.length - offset) = maximum
  obtain ⟨s, hs, -⟩ := hpage maximum
  rw [chosenCount]
  simp only [hmaximum, hs, ok_bind]
  split_ifs with hle
  · exact ⟨maximum, rfl, le_rfl, Or.inr ⟨_, hs, hle⟩, fun _ k hk hkm => absurd hkm (by omega)⟩
  · have hnot : ¬PageFits itemValue S items summary request offset maximum := by
      rintro ⟨page, hpage, hbytes⟩
      rw [Except.ok.inj (hpage.symm.trans hs)] at hbytes
      exact hle hbytes
    have hanti (h : Untruncated request) (j k : Nat) (hjk : j ≤ k) (hk : k ≤ maximum - 1)
        (hP : PageFits itemValue S items summary request offset k) :
        PageFits itemValue S items summary request offset j := by
      rcases Nat.eq_zero_or_pos maximum with hzero | hpos
      · obtain rfl : j = k := by omega
        exact hP
      · exact PageFits.of_le itemValue S items summary request h hjk (by omega) hP
    obtain ⟨n, hn, hlargest⟩ := searchCount_ok hfits hanti (Nat.zero_le _) le_rfl (Or.inl rfl)
      (fun _ k hk hkt => absurd hkt (by omega))
    refine ⟨n, hn, by have := hlargest.1; omega, hlargest.2.1, fun hA k hk hkm hP => ?_⟩
    rcases Nat.lt_or_ge k maximum with hlt | hge
    · exact hlargest.2.2 hA k hk (by omega) hP
    · exact hnot (by rwa [show maximum = k by omega])

theorem paginateInteractiveQuery_eq
    (hbounds : validateInteractiveQueryBounds request.maxItems request.maxBytes none = .ok ())
    {offset n : Nat} (hstart : startOffset S request = .ok offset) (hoffset : offset ≤ items.length)
    (hn : chosenCount itemValue S items summary request offset = .ok n)
    {page : InteractiveQueryPage T} (hpage : stablePage itemValue S items summary request offset n
      (decide (n = 0 ∧ offset < items.length)) = .ok page) :
    paginateInteractiveQuery itemValue S items summary request =
      if request.maxBytes < page.serializedOutputBytes then .error maxBytesTooSmall
      else .ok page := by
  rw [paginateInteractiveQuery, hbounds, ok_bind, hstart, ok_bind]
  simp only [if_neg (Nat.not_lt.2 hoffset), hn, ok_bind, hpage]
  split_ifs <;> rfl

/-! ### What a page holds -/

/-- What is promised of the page at an offset. -/
structure PageAt (offset : Nat) (page : InteractiveQueryPage T) : Prop where
  count_le : page.items.length ≤ request.maxItems
  items_eq : page.items = (items.drop offset).take page.items.length
  bytes_eq : page.serializedOutputBytes =
    (canonicalJson S.floatText (page.toValue itemValue)).utf8ByteSize
  bytes_le : page.serializedOutputBytes ≤ request.maxBytes
  largest : Untruncated request → ∀ k ≤ request.maxItems, offset + k ≤ items.length →
    PageFits itemValue S items summary request offset k → k ≤ page.items.length
  next : ∀ cursor, page.nextCursor = some cursor →
    cursor = encodeInteractiveQueryCursor S (interactiveQueryContext S request)
      (offset + page.items.length) ∧
    page.items ≠ [] ∧ offset + page.items.length < items.length ∧
    PageFits itemValue S items summary request offset page.items.length
  final : page.nextCursor = none → offset + page.items.length = items.length ∨
    page.items = [] ∧ ∃ d ∈ page.diagnostics, d.code = "QUERY_ITEM_EXCEEDS_BYTE_BUDGET"

/-- The page at an offset is too long even without items. -/
def SummaryTooLong (offset : Nat) : Prop :=
  ∃ page, stablePage itemValue S items summary request offset 0 (decide (offset < items.length)) =
    .ok page ∧ request.maxBytes < page.serializedOutputBytes

theorem mem_canonicalDiagnostics {diagnostics : List QueryPageDiagnostic}
    {d : QueryPageDiagnostic} (h : d ∈ diagnostics) : d ∈ canonicalDiagnostics diagnostics := by
  obtain ⟨b, hb, hsame⟩ : ∃ b ∈ canonicalDiagnostics diagnostics, decide (d = b) = true :=
    sortDedup_covers h (decide_eq_true rfl)
  exact of_decide_eq_true hsame ▸ hb

/-- **A page at an offset is what it is promised to be, or the summary alone is too long.** -/
theorem paginate_at
    (hbounds : validateInteractiveQueryBounds request.maxItems request.maxBytes none = .ok ())
    {offset : Nat} (hstart : startOffset S request = .ok offset) (hoffset : offset ≤ items.length) :
    paginateInteractiveQuery itemValue S items summary request = .error maxBytesTooSmall ∧
        SummaryTooLong itemValue S items summary request offset ∨
      ∃ page, paginateInteractiveQuery itemValue S items summary request = .ok page ∧
        PageAt itemValue S items summary request offset page := by
  obtain ⟨n, hn, hnmax, hnfits, hlargest⟩ :=
    chosenCount_ok itemValue S items summary request hoffset
  obtain ⟨s, hs, -⟩ := stablePage_ok itemValue S items summary request offset n
    (decide (n = 0 ∧ offset < items.length))
  have hbytes := stablePage_bytes itemValue S items summary request hs
  rw [paginateInteractiveQuery_eq itemValue S items summary request hbounds hstart hoffset hn hs]
  split_ifs with hle
  · refine Or.inl ⟨rfl, ?_⟩
    by_cases hzero : n = 0
    · subst hzero
      rw [decide_eq_decide.2 (and_iff_right rfl)] at hs
      exact ⟨_, hs, hle⟩
    · obtain ⟨page, hpage, hfits⟩ := hnfits.resolve_left hzero
      rw [decide_eq_false fun h => hzero h.1] at hs
      obtain rfl := Except.ok.inj (hpage.symm.trans hs)
      exact absurd hfits (Nat.not_le.2 hle)
  refine Or.inr ⟨_, rfl, ?_⟩
  have hlength : ((items.drop offset).take n).length = n := by
    rw [List.length_take, List.length_drop]
    omega
  refine ⟨?_, ?_, hbytes, Nat.le_of_not_lt hle, ?_, ?_, ?_⟩
  · exact hlength.trans_le (by omega)
  · exact congrArg (fun k => (items.drop offset).take k) hlength.symm
  · intro hA k hk hko hfits
    refine hlength.symm ▸ Nat.le_of_not_lt fun hnk => ?_
    exact hlargest hA k hnk (by omega) hfits
  · intro cursor hcursor
    simp only [buildInteractiveQueryPage, Option.ite_none_right_eq_some, Bool.and_eq_true,
      decide_eq_true_eq, Bool.not_eq_true', decide_eq_false_iff_not, not_and] at hcursor
    obtain ⟨⟨hlt, hzero⟩, hcursor⟩ := hcursor
    have hpos : n ≠ 0 := fun hn => hzero hn (by omega)
    simp only [buildInteractiveQueryPage, hlength]
    refine ⟨(Option.some.inj hcursor).symm, fun hnil => ?_, hlt, hnfits.resolve_left hpos⟩
    rw [hnil] at hlength
    exact hpos hlength.symm
  · intro hcursor
    by_cases hlt : offset + n < items.length
    · by_cases hzero : n = 0 ∧ offset < items.length
      · refine Or.inr ⟨?_, itemExceedsByteBudget request.maxBytes, ?_, rfl⟩
        · exact List.length_eq_zero_iff.1 (hlength.trans hzero.1)
        · refine mem_canonicalDiagnostics (List.mem_append_right _ ?_)
          rw [decide_eq_true hzero, if_pos rfl]
          exact List.mem_singleton_self _
      · simp [buildInteractiveQueryPage, hlt, hzero] at hcursor
    · refine Or.inl ?_
      simp only [buildInteractiveQueryPage, hlength]
      omega

/-! ### Every page -/

/-- The pages that come of feeding every cursor back, and the error that ends them, if any. -/
inductive Iteration (call : Option String → Except String (InteractiveQueryPage T)) :
    Option String → List (InteractiveQueryPage T) → Option String → Prop
  | failed {cursor : Option String} {error : String} (h : call cursor = .error error) :
      Iteration call cursor [] (some error)
  | last {cursor : Option String} {page : InteractiveQueryPage T} (h : call cursor = .ok page)
      (hlast : page.nextCursor = none) : Iteration call cursor [page] none
  | next {cursor : Option String} {page : InteractiveQueryPage T} {following : String}
      {pages : List (InteractiveQueryPage T)} {error : Option String} (h : call cursor = .ok page)
      (hnext : page.nextCursor = some following)
      (hrest : Iteration call (some following) pages error) :
      Iteration call cursor (page :: pages) error

/-- The call for the page at a cursor. -/
def pageFrom (cursor : Option String) : Except String (InteractiveQueryPage T) :=
  paginateInteractiveQuery itemValue S items summary { request with cursor }

/-- Pages from an offset on, each of which is what it is promised to be. -/
inductive Delivered : Nat → List (InteractiveQueryPage T) → Option String → Prop
  | failed {offset : Nat} (h : SummaryTooLong itemValue S items summary request offset) :
      Delivered offset [] (some maxBytesTooSmall)
  | last {offset : Nat} {page : InteractiveQueryPage T}
      (h : PageAt itemValue S items summary request offset page) (hlast : page.nextCursor = none) :
      Delivered offset [page] none
  | next {offset : Nat} {page : InteractiveQueryPage T} {following : String}
      {pages : List (InteractiveQueryPage T)} {error : Option String}
      (h : PageAt itemValue S items summary request offset page)
      (hnext : page.nextCursor = some following)
      (hrest : Delivered (offset + page.items.length) pages error) :
      Delivered offset (page :: pages) error

/-- A cursor stands for an offset among the items. -/
def StandsFor (cursor : Option String) (offset : Nat) : Prop :=
  startOffset S { request with cursor } = .ok offset ∧ offset ≤ items.length

variable {itemValue S items summary request}

theorem StandsFor.pageFrom {cursor : Option String} {offset : Nat}
    (hbounds : validateInteractiveQueryBounds request.maxItems request.maxBytes none = .ok ())
    (h : StandsFor S items request cursor offset) :
    pageFrom itemValue S items summary request cursor = .error maxBytesTooSmall ∧
        SummaryTooLong itemValue S items summary request offset ∨
      ∃ page, pageFrom itemValue S items summary request cursor = .ok page ∧
        PageAt itemValue S items summary request offset page := by
  rcases paginate_at itemValue S items summary { request with cursor } hbounds h.1 h.2 with
    hfailed | ⟨page, hpage, hat⟩
  · exact Or.inl hfailed
  · exact Or.inr ⟨page, hpage, hat.1, hat.2, hat.3, hat.4, hat.5, hat.6, hat.7⟩

/-- The cursor of a page stands for the offset after its items. -/
theorem PageAt.standsFor (hsize : items.length < 2 ^ 64) {offset : Nat}
    {page : InteractiveQueryPage T} (h : PageAt itemValue S items summary request offset page)
    {following : String} (hnext : page.nextCursor = some following) :
    StandsFor S items request (some following) (offset + page.items.length) := by
  obtain ⟨rfl, -, hlt, -⟩ := h.next following hnext
  exact ⟨decode_encode S (interactiveQueryContext S request) (hlt.trans hsize), hlt.le⟩

/-- **Every iteration delivers**, by induction on it. -/
theorem Iteration.delivered
    (hbounds : validateInteractiveQueryBounds request.maxItems request.maxBytes none = .ok ())
    (hsize : items.length < 2 ^ 64) {cursor : Option String}
    {pages : List (InteractiveQueryPage T)} {error : Option String}
    (h : Iteration (pageFrom itemValue S items summary request) cursor pages error) {offset : Nat}
    (hstart : StandsFor S items request cursor offset) :
    Delivered itemValue S items summary request offset pages error := by
  induction h generalizing offset with
  | failed h =>
    rcases hstart.pageFrom hbounds with ⟨hfailed, hlong⟩ | ⟨page, hpage, -⟩
    · obtain rfl := Except.error.inj (h.symm.trans hfailed)
      exact .failed hlong
    · cases h.symm.trans hpage
  | last h hlast =>
    rcases hstart.pageFrom hbounds with ⟨hfailed, -⟩ | ⟨page, hpage, hat⟩
    · cases h.symm.trans hfailed
    · obtain rfl := Except.ok.inj (h.symm.trans hpage)
      exact .last hat hlast
  | next h hnext _ ih =>
    rcases hstart.pageFrom hbounds with ⟨hfailed, -⟩ | ⟨page, hpage, hat⟩
    · cases h.symm.trans hfailed
    · obtain rfl := Except.ok.inj (h.symm.trans hpage)
      exact .next hat hnext (ih (hat.standsFor hsize hnext))

/-- **The iteration ends**: every page with a cursor holds an item. -/
theorem exists_iteration
    (hbounds : validateInteractiveQueryBounds request.maxItems request.maxBytes none = .ok ())
    (hsize : items.length < 2 ^ 64) {cursor : Option String} {offset : Nat}
    (hstart : StandsFor S items request cursor offset) :
    ∃ pages error, Iteration (pageFrom itemValue S items summary request) cursor pages error := by
  induction hn : items.length - offset using Nat.strong_induction_on generalizing cursor offset with
  | _ n ih =>
    rcases hstart.pageFrom hbounds with ⟨hfailed, -⟩ | ⟨page, hpage, hat⟩
    · exact ⟨_, _, .failed hfailed⟩
    · cases hcursor : page.nextCursor with
      | none => exact ⟨_, _, .last hpage hcursor⟩
      | some following =>
        obtain ⟨-, hne, hlt, -⟩ := hat.next following hcursor
        have hpos := List.length_pos_iff.2 hne
        obtain ⟨pages, error, hrest⟩ :=
          ih _ (by omega) (hat.standsFor hsize hcursor) rfl
        exact ⟨_, _, .next hpage hcursor hrest⟩

/-! ### What the pages hold together -/

/-- The items after an offset are those of its page and those after them. -/
theorem PageAt.drop_eq {offset : Nat} {page : InteractiveQueryPage T}
    (h : PageAt itemValue S items summary request offset page) :
    items.drop offset = page.items ++ items.drop (offset + page.items.length) :=
  calc items.drop offset
    _ = (items.drop offset).take page.items.length ++
        (items.drop offset).drop page.items.length := (List.take_append_drop _ _).symm
    _ = page.items ++ items.drop (offset + page.items.length) := by
        rw [← h.items_eq, List.drop_drop]

section Delivered

variable {offset : Nat} {pages : List (InteractiveQueryPage T)} {error : Option String}
  (h : Delivered itemValue S items summary request offset pages error)

include h

theorem Delivered.pageAt {before after : List (InteractiveQueryPage T)}
    {page : InteractiveQueryPage T} (hpages : pages = before ++ page :: after) :
    PageAt itemValue S items summary request
      (offset + (before.flatMap InteractiveQueryPage.items).length) page := by
  induction h generalizing before with
  | failed => simp at hpages
  | last h hlast =>
    cases before with
    | nil =>
      obtain ⟨rfl, -⟩ := List.cons.inj hpages
      exact h
    | cons first before => simp at hpages
  | next h hnext _ ih =>
    cases before with
    | nil =>
      obtain ⟨rfl, -⟩ := List.cons.inj hpages
      exact h
    | cons first before =>
      obtain ⟨rfl, hrest⟩ := List.cons.inj hpages
      rw [List.flatMap_cons, List.length_append, ← Nat.add_assoc]
      exact ih hrest

theorem Delivered.initial : pages.flatMap InteractiveQueryPage.items <+: items.drop offset := by
  induction h with
  | failed => exact List.nil_prefix
  | last h hlast =>
    rw [List.flatMap_singleton, h.items_eq]
    exact List.take_prefix _ _
  | next h hnext _ ih =>
    rw [List.flatMap_cons, h.drop_eq]
    exact (List.prefix_append_right_inj _).2 ih

/-- An iteration fails only where the page is too long without items. -/
theorem Delivered.error_iff : error ≠ none ↔ error = some maxBytesTooSmall ∧
    SummaryTooLong itemValue S items summary request
      (offset + (pages.flatMap InteractiveQueryPage.items).length) := by
  induction h with
  | failed hlong => exact iff_of_true (by simp) ⟨rfl, hlong⟩
  | last => simp
  | next h hnext _ ih => rw [ih, List.flatMap_cons, List.length_append, ← Nat.add_assoc]

theorem Delivered.complete : error = some maxBytesTooSmall ∨ error = none ∧
    (pages.flatMap InteractiveQueryPage.items = items.drop offset ∨
      ∃ page, pages.getLast? = some page ∧
        ∃ d ∈ page.diagnostics, d.code = "QUERY_ITEM_EXCEEDS_BYTE_BUDGET") := by
  induction h with
  | failed => exact Or.inl rfl
  | last h hlast =>
    refine Or.inr ⟨rfl, ?_⟩
    rcases h.final hlast with hend | ⟨-, hstuck⟩
    · refine Or.inl ?_
      rw [List.flatMap_singleton, h.drop_eq, hend, List.drop_length, List.append_nil]
    · exact Or.inr ⟨_, rfl, hstuck⟩
  | next h hnext _ ih =>
    rcases ih with hfailed | ⟨hnone, hall | ⟨page, hpage, hstuck⟩⟩
    · exact Or.inl hfailed
    · refine Or.inr ⟨hnone, Or.inl ?_⟩
      rw [List.flatMap_cons, hall, ← h.drop_eq]
    · refine Or.inr ⟨hnone, Or.inr ⟨page, ?_, hstuck⟩⟩
      rw [List.getLast?_cons, hpage, Option.getD_some]

end Delivered

/-- **Feeding every cursor back delivers the items.** The pages end, and hold the first items in
order and each of them once; they hold all items unless the last page has room for no further item,
and says so, or the budget of bytes does not suffice for the summary. Every page counts its own bytes
and holds as many items as fit. -/
theorem paginateInteractiveQuery_delivers (itemValue : T → Value) (S : StableIds) (items : List T)
    (summary : InteractiveQuerySummary) (request : InteractiveQueryPageRequest)
    (hbounds : validateInteractiveQueryBounds request.maxItems request.maxBytes none = .ok ())
    (hsize : items.length < 2 ^ 64) :
    (∃ pages error, Iteration (pageFrom itemValue S items summary request) none pages error) ∧
    ∀ pages error, Iteration (pageFrom itemValue S items summary request) none pages error →
      pages.flatMap InteractiveQueryPage.items <+: items ∧
      (error = some maxBytesTooSmall ∨ error = none ∧
        (pages.flatMap InteractiveQueryPage.items = items ∨
          ∃ page, pages.getLast? = some page ∧
            ∃ d ∈ page.diagnostics, d.code = "QUERY_ITEM_EXCEEDS_BYTE_BUDGET")) ∧
      (error ≠ none → SummaryTooLong itemValue S items summary request
        (pages.flatMap InteractiveQueryPage.items).length) ∧
      ∀ before page after, pages = before ++ page :: after →
        page.serializedOutputBytes =
          (canonicalJson S.floatText (page.toValue itemValue)).utf8ByteSize ∧
        page.serializedOutputBytes ≤ request.maxBytes ∧ page.items.length ≤ request.maxItems ∧
        (page.nextCursor ≠ none → page.items ≠ [] ∧
          PageFits itemValue S items summary request
            (before.flatMap InteractiveQueryPage.items).length page.items.length) ∧
        (page.nextCursor = none →
          (before.flatMap InteractiveQueryPage.items).length + page.items.length = items.length ∨
          page.items = [] ∧ ∃ d ∈ page.diagnostics, d.code = "QUERY_ITEM_EXCEEDS_BYTE_BUDGET") ∧
        (Untruncated request → ∀ k ≤ request.maxItems,
          (before.flatMap InteractiveQueryPage.items).length + k ≤ items.length →
          PageFits itemValue S items summary request
            (before.flatMap InteractiveQueryPage.items).length k → k ≤ page.items.length) := by
  have hstart : StandsFor S items request none 0 := ⟨rfl, Nat.zero_le _⟩
  refine ⟨exists_iteration hbounds hsize hstart, fun pages error hpages => ?_⟩
  have hdelivered := hpages.delivered hbounds hsize hstart
  refine ⟨hdelivered.initial, hdelivered.complete, fun herror => ?_, fun before page after heq => ?_⟩
  · have hlong := (hdelivered.error_iff.1 herror).2
    rwa [Nat.zero_add] at hlong
  have hat := hdelivered.pageAt heq
  rw [Nat.zero_add] at hat
  refine ⟨hat.bytes_eq, hat.bytes_le, hat.count_le, fun hcursor => ?_, hat.final, hat.largest⟩
  obtain ⟨cursor, hcursor⟩ := Option.ne_none_iff_exists'.1 hcursor
  obtain ⟨-, hne, -, hfits⟩ := hat.next cursor hcursor
  exact ⟨hne, hfits⟩

end Pages

namespace PageSample

theorem digest_size : (List.replicate 32 (0 : UInt8)).length = 32 := List.length_replicate

/-- A hash that nothing here depends on. -/
def stableIds : StableIds := ⟨.plain, fun _ => ⟨List.replicate 32 0, digest_size⟩⟩

def items : List Value := [.null, .string "b"]

def noCounts : QueryCountSummary := ⟨[], 0, 0⟩

def summary : InteractiveQuerySummary := ⟨2, noCounts, noCounts, noCounts, noCounts, noCounts⟩

def request : InteractiveQueryPageRequest where
  command := "deps"
  scanId := "scan"
  snapshotId := "snapshot:scan"
  context := .null
  cursor := none
  maxItems := 1
  maxBytes := 4096
  traversalComplete := false
  traversedItems := 2
  root := none
  diagnostics := [⟨"QUERY_TRAVERSAL_LIMIT_REACHED", "stopped", "rerun"⟩]

theorem untruncated : Untruncated request := by simp [Untruncated, request]

/-- The pages of a sample request hold as many items as fit. -/
theorem delivers : ∃ pages error,
    Iteration (pageFrom id stableIds items summary request) none pages error ∧
      pages.flatMap InteractiveQueryPage.items <+: items ∧
      ∀ before page after, pages = before ++ page :: after →
        page.serializedOutputBytes ≤ 4096 ∧ page.items.length ≤ 1 ∧
        ∀ k ≤ 1, (before.flatMap InteractiveQueryPage.items).length + k ≤ 2 →
          PageFits id stableIds items summary request
            (before.flatMap InteractiveQueryPage.items).length k → k ≤ page.items.length := by
  obtain ⟨⟨pages, error, h⟩, hall⟩ :=
    paginateInteractiveQuery_delivers id stableIds items summary request rfl (by decide)
  obtain ⟨hinitial, -, -, hpages⟩ := hall pages error h
  refine ⟨pages, error, h, hinitial, fun before page after heq => ?_⟩
  obtain ⟨-, hbytes, hcount, -, -, hlargest⟩ := hpages before page after heq
  exact ⟨hbytes, hcount, hlargest untruncated⟩

end PageSample

end Query
