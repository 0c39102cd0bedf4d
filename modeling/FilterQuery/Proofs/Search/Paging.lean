import Mathlib.Algebra.Order.Floor.Div
import FilterQuery.Proofs.Search.Independence

/-!
# Paging through a search

What a search asks of its executor and what pages it gives. A search counts first, fetches the page
only when it begins before the last row, and passes on the first error (`SearchOutcome`). Over a
table whose rows are numbered, a page has the rows that its number and its size say, and knows how
many pages there are and whether one follows (`PageLaw`). So whoever goes on from the first page as
long as there is a next one (`Walk`) sees every row once, in order, and comes to an end
(`Engine.search_pages`).
-/

namespace FilterQuery

variable {α : Type}

/-! ## Calls of an executor -/

/-- A call of an executor. -/
inductive Call where
  /-- Counting the rows of a request. -/
  | count (request : SearchRequest)
  /-- Fetching the page of a request. -/
  | fetch (request : SearchRequest)

/-- An executor that answers as it is told and keeps a record of its calls. -/
def Executor.recording (count : SearchRequest → Except DataError Nat)
    (fetch : SearchRequest → Except DataError (List α)) : Executor (StateM (List Call)) α where
  count r := do
    modify (· ++ [.count r])
    pure (count r)
  fetch r := do
    modify (· ++ [.fetch r])
    pure (fetch r)

/-- The answers for a table of numbered rows: their number, and the rows from the offset of a
request to the end of its page or of the table. -/
def Executor.numbered (total : Nat) (row : Nat → α) : Executor (StateM (List Call)) α :=
  .recording (fun _ => .ok total) fun r =>
    .ok ((List.range' r.offset (min (r.offset + r.perPage) total - r.offset)).map row)

/-- A search with the record of its calls. -/
def Engine.recorded (e : Engine) (executor : Executor (StateM (List Call)) α) (root : String)
    (query : PageQuery) (now : Instant) : Except SearchError (Page α) × List Call :=
  (e.search executor root query now).run []

/-- What comes of a search, and which calls it makes, when its preparation and the executor answer
in some way: the first error as it is, with no call after it, or a page, which is fetched by one
call when it begins before the last row and otherwise not at all. -/
inductive SearchOutcome (prepared : Except FilterError SearchRequest)
    (count : SearchRequest → Except DataError Nat)
    (fetch : SearchRequest → Except DataError (List α)) :
    Except SearchError (Page α) × List Call → Prop
  | unprepared {error : FilterError} : prepared = .error error →
      SearchOutcome prepared count fetch (.error (.filter error), [])
  | uncounted {r : SearchRequest} {error : DataError} : prepared = .ok r →
      count r = .error error → SearchOutcome prepared count fetch (.error (.data error), [.count r])
  | beyond {r : SearchRequest} {total : Nat} : prepared = .ok r → count r = .ok total →
      total ≤ (r.page - 1) * r.perPage →
      SearchOutcome prepared count fetch (.ok (.of [] r.page r.perPage total), [.count r])
  | unfetched {r : SearchRequest} {total : Nat} {error : DataError} : prepared = .ok r →
      count r = .ok total → (r.page - 1) * r.perPage < total → fetch r = .error error →
      SearchOutcome prepared count fetch (.error (.data error), [.count r, .fetch r])
  | fetched {r : SearchRequest} {total : Nat} {items : List α} : prepared = .ok r →
      count r = .ok total → (r.page - 1) * r.perPage < total → fetch r = .ok items →
      SearchOutcome prepared count fetch
        (.ok (.of items r.page r.perPage total), [.count r, .fetch r])

theorem SearchRequest.run_recording (r : SearchRequest)
    (count : SearchRequest → Except DataError Nat)
    (fetch : SearchRequest → Except DataError (List α)) :
    (r.run (.recording count fetch)).run [] =
      match count r with
      | .error error => (.error (.data error), [.count r])
      | .ok total =>
        if total ≤ r.offset then (.ok (.of [] r.page r.perPage total), [.count r])
        else
          match fetch r with
          | .error error => (.error (.data error), [.count r, .fetch r])
          | .ok items => (.ok (.of items r.page r.perPage total), [.count r, .fetch r]) := by
  simp only [run, Executor.recording, bind_assoc, pure_bind]
  cases count r with
  | error error => rfl
  | ok total =>
    by_cases hbeyond : total ≤ r.offset
    · simp only [if_pos hbeyond]
      rfl
    · simp only [if_neg hbeyond]
      cases fetch r <;> rfl

/-- Whatever an executor answers, a search makes no needless call and passes on the first error. -/
theorem Engine.recorded_outcome (e : Engine) (count : SearchRequest → Except DataError Nat)
    (fetch : SearchRequest → Except DataError (List α)) (root : String) (query : PageQuery)
    (now : Instant) :
    SearchOutcome (e.prepare root query now) count fetch
      (e.recorded (.recording count fetch) root query now) := by
  rw [recorded, search]
  cases hprepared : e.prepare root query now with
  | error error => exact .unprepared rfl
  | ok r =>
    simp only [r.run_recording]
    cases hcount : count r with
    | error error => exact .uncounted rfl hcount
    | ok total =>
      simp only
      split
      · exact .beyond rfl hcount (by assumption)
      · rename_i hbegins
        have hbegins : r.offset < total := Nat.lt_of_not_le hbegins
        cases hfetch : fetch r with
        | error error => exact .unfetched rfl hcount hbegins hfetch
        | ok items => exact .fetched rfl hcount hbegins hfetch

/-! ## Single pages -/

/-- What a page holds of so many numbered rows, and what it says of the pages beside it. -/
structure PageLaw (n size : Nat) (row : Nat → α) (k : Nat) (p : Page α) : Prop where
  page : p.page = k
  perPage : p.perPage = size
  total : p.total = n
  items : p.items = (List.range' ((k - 1) * size) (min (k * size) n - (k - 1) * size)).map row
  hasNext : p.hasNext = true ↔ k * size < n
  totalPages : p.totalPages = min (n ⌈/⌉ size) maxNat32

variable {n size k : Nat} {row : Nat → α}

theorem pageCount_eq_ceilDiv (hsize : 1 ≤ size) : pageCount n size = n ⌈/⌉ size := by
  rw [pageCount, Nat.max_eq_left hsize, Nat.ceilDiv_eq_add_pred_div]

theorem lt_ceilDiv_iff (hsize : 1 ≤ size) : k < n ⌈/⌉ size ↔ k * size < n := by
  rw [← Nat.not_le, ← Nat.not_le, ceilDiv_le_iff_le_mul hsize, Nat.mul_comm]

/-- A page ends where the next one begins. -/
theorem offset_add_size (hk : 1 ≤ k) : (k - 1) * size + size = k * size := by
  obtain ⟨m, rfl⟩ := Nat.exists_eq_add_of_le' hk
  rw [Nat.add_sub_cancel, Nat.succ_mul]

theorem pageLaw_of (hsize : 1 ≤ size) {items : List α}
    (hitems : items =
      (List.range' ((k - 1) * size) (min (k * size) n - (k - 1) * size)).map row) :
    PageLaw n size row k (.of items k size n) where
  page := rfl
  perPage := rfl
  total := rfl
  items := hitems
  hasNext := by rw [Page.of, decide_eq_true_eq, pageCount_eq_ceilDiv hsize, lt_ceilDiv_iff hsize]
  totalPages := by rw [Page.of, pageCount_eq_ceilDiv hsize]

/-- A request for a page of numbered rows counts them, fetches the page if any row is on it, and
gives the page that the law says. -/
theorem SearchRequest.run_numbered (r : SearchRequest) (hpage : 1 ≤ r.page)
    (hsize : 1 ≤ r.perPage) (n : Nat) (row : Nat → α) :
    ∃ p, PageLaw n r.perPage row r.page p ∧
      (r.run (.numbered n row)).run [] =
        (.ok p, .count r :: if (r.page - 1) * r.perPage < n then [.fetch r] else []) := by
  rw [Executor.numbered, run_recording]
  simp only [offset, offset_add_size hpage]
  by_cases hbegins : (r.page - 1) * r.perPage < n
  · rw [if_neg (Nat.not_le.2 hbegins), if_pos hbegins]
    exact ⟨_, pageLaw_of hsize rfl, rfl⟩
  · have hnone : min (r.page * r.perPage) n - (r.page - 1) * r.perPage = 0 := by omega
    rw [if_pos (Nat.not_lt.1 hbegins), if_neg hbegins]
    exact ⟨_, pageLaw_of hsize (by rw [hnone]; rfl), rfl⟩

namespace Engine

variable {e : Engine} {root : String} {query : PageQuery} {now : Instant}
  {r : SearchRequest}

/-- The sizes of pages that are accepted. -/
theorem perPage_of_prepare (h : e.prepare root query now = .ok r) :
    1 ≤ query.perPage ∧ query.perPage ≤ FilterQuery.maxPerPage := by
  obtain ⟨_, hcheck, -⟩ := bind_eq_ok.1 h
  rw [PageQuery.check] at hcheck
  split at hcheck
  · rename_i hfits
    simp only [Bool.and_eq_true, decide_eq_true_eq] at hfits
    exact hfits.2
  · split at hcheck
    · cases hcheck
    · split at hcheck <;> cases hcheck

/-- A query that is accepted for one page is accepted for every page. -/
theorem prepare_page (h : e.prepare root query now = .ok r) (hk : 1 ≤ k) :
    e.prepare root { query with page := k } now = .ok { r with page := k } := by
  obtain ⟨hone, hmaximum⟩ := perPage_of_prepare h
  have hcheck : PageQuery.check { query with page := k } = .ok () := by
    simp [PageQuery.check, hk, hone, hmaximum]
  obtain ⟨-, -, hrest⟩ := bind_eq_ok.1 h
  rw [prepare, hcheck]
  split at hrest
  · cases hrest
  · rename_i hallowed
    show (if e.maxPerPage < query.perPage then _ else _) = _
    rw [if_neg hallowed]
    simp only [bind_eq_ok] at hrest ⊢
    obtain ⟨entity, hentity, f, hf, compiled, hcompiled, columns, hcolumns, hmade⟩ := hrest
    obtain rfl := Except.ok.inj hmade
    exact ⟨entity, hentity, f, hf, compiled, hcompiled, columns, hcolumns, rfl⟩

theorem recorded_numbered (h : e.prepare root query now = .ok r) (hk : 1 ≤ k) (n : Nat)
    (row : Nat → α) :
    ∃ p, PageLaw n query.perPage row k p ∧
      e.recorded (.numbered n row) root { query with page := k } now =
        (.ok p, .count { r with page := k } ::
          if (k - 1) * query.perPage < n then [.fetch { r with page := k }] else []) := by
  have hr : r.perPage = query.perPage := by
    obtain ⟨_, _, _, _, -, -, -, -, rfl⟩ := prepare_eq_ok h
    rfl
  rw [recorded, search, prepare_page h hk, ← hr]
  exact SearchRequest.run_numbered { r with page := k } hk (hr ▸ (perPage_of_prepare h).1) n row

end Engine

/-! ## Going through the pages -/

/-- The pages that are seen from a page on when the next page is searched as long as there is one.
The number of a page has 32 bits. -/
inductive Walk (search : Nat → Except SearchError (Page α)) : Nat → List (Page α) → Prop
  | last {k : Nat} {p : Page α} : search k = .ok p → p.hasNext = false → Walk search k [p]
  | next {k : Nat} {p : Page α} {ps : List (Page α)} : search k = .ok p → p.hasNext = true →
      k + 1 ≤ maxNat32 → Walk search (k + 1) ps → Walk search k (p :: ps)

namespace Walk

variable {search : Nat → Except SearchError (Page α)} {ps qs : List (Page α)}

/-- There is one way to go through the pages. -/
theorem eq (h : Walk search k ps) (h' : Walk search k qs) : ps = qs := by
  induction h generalizing qs with
  | last hp hlast =>
    cases h' with
    | last hq _ => rw [Except.ok.inj (hp.symm.trans hq)]
    | next hq hmore _ _ =>
      obtain rfl := Except.ok.inj (hp.symm.trans hq)
      rw [hlast] at hmore
      cases hmore
  | next hp hmore _ _ ih =>
    cases h' with
    | last hq hlast =>
      obtain rfl := Except.ok.inj (hp.symm.trans hq)
      rw [hlast] at hmore
      cases hmore
    | next hq _ _ hrest => rw [Except.ok.inj (hp.symm.trans hq), ih hrest]

/-- From a page on that there is, going through the pages comes to the last of them and gives the
rows from this page to the end. -/
theorem of_pageLaw (hsize : 1 ≤ size) (hfits : n ⌈/⌉ size ≤ maxNat32)
    (hlaw : ∀ k, 1 ≤ k → ∃ p, search k = .ok p ∧ PageLaw n size row k p) (hk : 1 ≤ k)
    (hthere : k ≤ max 1 (n ⌈/⌉ size)) :
    ∃ ps, Walk search k ps ∧
      ps.map Page.page = List.range' k (max 1 (n ⌈/⌉ size) + 1 - k) ∧
      ps.flatMap Page.items = (List.range' ((k - 1) * size) (n - (k - 1) * size)).map row := by
  induction hleft : n ⌈/⌉ size - k generalizing k with
  | zero =>
    obtain ⟨p, hp, hpage⟩ := hlaw k hk
    have hend : n ≤ k * size := by
      rw [← Nat.not_lt, ← lt_ceilDiv_iff hsize]
      omega
    have hlast : p.hasNext = false := by
      rw [Bool.eq_false_iff, ne_eq, hpage.hasNext]
      omega
    refine ⟨[p], .last hp hlast, ?_, ?_⟩
    · have hone : max 1 (n ⌈/⌉ size) + 1 - k = 1 := by omega
      simp [hone, hpage.page]
    · simp [hpage.items, Nat.min_eq_right hend]
  | succ d ih =>
    obtain ⟨p, hp, hpage⟩ := hlaw k hk
    have hless : k * size < n := by
      rw [← lt_ceilDiv_iff hsize]
      omega
    obtain ⟨ps, hwalk, hnumbers, hitems⟩ := ih (k := k + 1) (by omega) (by omega) (by omega)
    refine ⟨p :: ps, .next hp (hpage.hasNext.2 hless) (by omega) hwalk, ?_, ?_⟩
    · have hmore : max 1 (n ⌈/⌉ size) + 1 - k = max 1 (n ⌈/⌉ size) + 1 - (k + 1) + 1 := by omega
      rw [List.map_cons, hnumbers, hpage.page, hmore, List.range'_succ]
    · have hstep : (k - 1) * size + size = k * size := offset_add_size hk
      have hfull : min (k * size) n - (k - 1) * size = size := by omega
      have hrest : n - (k - 1) * size = size + (n - k * size) := by omega
      rw [List.flatMap_cons, hitems, hpage.items, ← List.map_append, hfull, hrest,
        Nat.add_sub_cancel, ← hstep, List.range'_append_1]

end Walk

/-! ## Searching pages -/

/-- The page of numbered rows that a search gives for a number, each page being searched at a time
of its own. -/
def Engine.numberedPage (e : Engine) (root : String) (query : PageQuery) (now : Nat → Instant)
    (n : Nat) (row : Nat → α) (k : Nat) : Except SearchError (Page α) :=
  (e.recorded (.numbered n row) root { query with page := k } (now k)).1

/-- Neither an offset nor the end of a page nor the number of pages takes more than 64 bits. -/
theorem fits_of_pages (hsize : 1 ≤ size) (hmaximum : size ≤ maxPerPage) (hk : k ≤ maxNat32)
    (hn : n ≤ maxNat64) :
    (k - 1) * size ≤ maxNat64 ∧ k * size ≤ maxNat64 ∧ pageCount n size ≤ maxNat64 := by
  have hend : k * size ≤ maxNat32 * maxPerPage := Nat.mul_le_mul hk hmaximum
  have hbound : maxNat32 * maxPerPage ≤ maxNat64 := by decide
  have hstart : (k - 1) * size ≤ k * size := Nat.mul_le_mul_right size (Nat.sub_le k 1)
  refine ⟨by omega, by omega, Nat.le_trans ?_ hn⟩
  rw [pageCount_eq_ceilDiv hsize, ceilDiv_le_iff_le_mul hsize]
  exact Nat.le_mul_of_pos_left n hsize

/-- Going through the pages of a search shows every row once and in order. In general, a search ends
with the first error and makes no call that it does not need. Over numbered rows, every page of a
query that is accepted holds the rows that belong on it, is fetched by one call unless it is empty,
knows how many pages there are and whether one follows, and needs no number of more than 64 bits. So
there is one way to go on from the first page as long as there is a next one, which visits the pages
in order, one of them at least, and sees all the rows. -/
theorem Engine.search_pages (e : Engine) (root : String) (query : PageQuery) :
    (∀ (now : Instant) (count : SearchRequest → Except DataError Nat)
      (fetch : SearchRequest → Except DataError (List α)),
      SearchOutcome (e.prepare root query now) count fetch
        (e.recorded (.recording count fetch) root query now)) ∧
    (∀ (now : Instant) (r : SearchRequest), e.prepare root query now = .ok r →
      ∀ (n k : Nat) (row : Nat → α), n ≤ maxNat64 → 1 ≤ k → k ≤ maxNat32 →
        (∃ p, PageLaw n query.perPage row k p ∧
          e.recorded (.numbered n row) root { query with page := k } now =
            (.ok p, .count { r with page := k } ::
              if (k - 1) * query.perPage < n then [.fetch { r with page := k }] else [])) ∧
        (k - 1) * query.perPage ≤ maxNat64 ∧ k * query.perPage ≤ maxNat64 ∧
        pageCount n query.perPage ≤ maxNat64) ∧
    ∀ now : Nat → Instant, (∀ k, ∃ r, e.prepare root query (now k) = .ok r) →
      ∀ (n : Nat) (row : Nat → α), n ⌈/⌉ query.perPage ≤ maxNat32 →
        ∃ ps, (∀ qs, Walk (e.numberedPage root query now n row) 1 qs ↔ qs = ps) ∧
          ps.map Page.page = List.range' 1 (max 1 (n ⌈/⌉ query.perPage)) ∧
          ps.flatMap Page.items = (List.range n).map row := by
  refine ⟨?_, ?_, ?_⟩
  · exact fun now count fetch => e.recorded_outcome count fetch root query now
  · intro now r h n k row hn hk hk32
    obtain ⟨hsize, hmaximum⟩ := perPage_of_prepare h
    exact ⟨recorded_numbered h hk n row, fits_of_pages hsize hmaximum hk32 hn⟩
  · intro now haccepted n row hfits
    have hlaw : ∀ k, 1 ≤ k → ∃ p, e.numberedPage root query now n row k = .ok p ∧
        PageLaw n query.perPage row k p := by
      intro k hk
      obtain ⟨r, h⟩ := haccepted k
      obtain ⟨p, hpage, hrun⟩ := recorded_numbered h hk n row
      exact ⟨p, congrArg Prod.fst hrun, hpage⟩
    obtain ⟨_, h⟩ := haccepted 1
    obtain ⟨ps, hwalk, hnumbers, hitems⟩ := Walk.of_pageLaw (perPage_of_prepare h).1 hfits hlaw
      (Nat.le_refl 1) (Nat.le_max_left 1 _)
    refine ⟨ps, fun qs => ⟨fun hqs => hqs.eq hwalk, fun hqs => hqs ▸ hwalk⟩, ?_, ?_⟩
    · rw [hnumbers, Nat.add_sub_cancel]
    · rw [hitems, Nat.sub_self, Nat.zero_mul, Nat.sub_zero, List.range_eq_range']

/-- Twenty-five cards are seen on three pages, and on the page with the greatest number none is
fetched. -/
theorem Engine.search_pages_cards :
    ∃ r, Catalog.engine.prepare "card" .default ⟨0, 0⟩ = .ok r ∧
      (∃ ps, Walk (Catalog.engine.numberedPage "card" .default (fun _ => ⟨0, 0⟩) 25 id) 1 ps ∧
        ps.map Page.page = [1, 2, 3] ∧ ps.flatMap Page.items = List.range 25) ∧
      (Catalog.engine.recorded (.numbered 25 id) "card" { PageQuery.default with page := maxNat32 }
        ⟨0, 0⟩).2 = [.count { r with page := maxNat32 }] := by
  obtain ⟨r, h⟩ : ∃ r, Catalog.engine.prepare "card" .default ⟨0, 0⟩ = .ok r := ⟨_, rfl⟩
  obtain ⟨-, hpages, hwalks⟩ := Engine.search_pages (α := Nat) Catalog.engine "card" .default
  obtain ⟨ps, hwalk, hnumbers, hitems⟩ := hwalks (fun _ => ⟨0, 0⟩) (fun _ => ⟨r, h⟩) 25 id
    (by decide)
  obtain ⟨⟨p, -, hrun⟩, -⟩ := hpages ⟨0, 0⟩ r h 25 maxNat32 id (by decide) (by decide)
    (Nat.le_refl _)
  refine ⟨r, h, ⟨ps, (hwalk ps).2 rfl, hnumbers, hitems.trans (List.map_id _)⟩, ?_⟩
  exact congrArg Prod.snd hrun

end FilterQuery
