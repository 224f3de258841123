import Invalidation.Proofs.Records

namespace Invalidation

-- A record matches filters: its changed identifier, downstream identifier and notification number
-- are the ones given, where one is given, and its phase is among the phases given, where any are.
def Entry.Matches (e : Entry) (u d : Option Text) (ps : List Phase) (n : Option Int) : Prop :=
  (∀ x ∈ u, e.changed = x) ∧ (∀ x ∈ d, e.downstream = some x) ∧ (ps ≠ [] → e.phase ∈ ps) ∧
    ∀ x ∈ n, (e.notification : Int) = x

instance (e : Entry) (u d : Option Text) (ps : List Phase) (n : Option Int) :
    Decidable (e.Matches u d ps n) :=
  inferInstanceAs (Decidable (_ ∧ _ ∧ _ ∧ _))

-- A query with typed filters, each absent for no filter, and an integer limit.
def Query.ofFilters (u d : Option Text) (ps : List Phase) (n : Option Int) (limit : Int) : Query :=
  ⟨Json.ofOption u, Json.ofOption d, ps, (n.map Json.int).getD .null, .int limit⟩

namespace Query

theorem selects_ofFilters (u d : Option Text) (ps : List Phase) (n : Option Int) (L : Int) :
    (ofFilters u d ps n L).selects = fun e => decide (e.Matches u d ps n) := by
  funext e
  obtain ⟨number, depth, changed, downstream, phase, component⟩ := e
  -- each filter given or not, and a record with a downstream identifier or without
  cases u <;> cases d <;> cases n <;> cases ps <;> cases downstream <;>
    simp [selects, ofFilters, Entry.Matches, Json.ofOption, Json.equals, Json.equiv, Json.number?,
      Num.exactEq, Num.fraction?, Bool.beq_eq_decide_eq, eq_comm, Bool.and_assoc]

end Query

namespace Journal

variable {q : Query} {L : Int}

-- The search after `found`: each match is taken, and the search stops once the number taken, a
-- match just added, reaches the limit; so at least one more is taken while any is left.
theorem collect_eq (hq : q.limit = .int L) (found es : List Entry) :
    collect q found es = .ok (found.reverse ++ (es.filter q.selects).take (max 1 (L.toNat - found.length))) := by
  induction es generalizing found with
  | nil => simp [collect]
  | cons e es ih =>
    by_cases he : q.selects e
    · rw [collect, if_pos he, List.filter_cons_of_pos he, hq]
      dsimp only
      rw [Json.relate_ge_int]
      simp only [bind, Except.bind, List.length_cons, Nat.cast_add, Nat.cast_one]
      by_cases hL : L ≤ (found.length : Int) + 1
      · -- the limit is reached with `e`
        have : max 1 (L.toNat - found.length) = 1 := by omega
        simp [hL, this, pure, Except.pure]
      · have more : max 1 (L.toNat - found.length) = max 1 (L.toNat - (found.length + 1)) + 1 := by
          omega
        simp [hL, ih, more, List.take_succ_cons]
    · rw [collect, if_neg he, List.filter_cons_of_neg he, ih]

theorem query_eq (j : Journal) (hq : q.limit = .int L) :
    j.query q = .ok ((j.entries.reverse.filter q.selects).take (max 1 L.toNat)) := by
  simp [query, collect_eq hq]

theorem recent_ofNat (j : Journal) (count : Nat) : j.recent count = j.entries.reverse.take count := by
  simp [recent]

theorem new_appendAll_entries (k : Nat) (given : Json) (records : List Entry) :
    ((new k given).appendAll records).entries = records.drop (records.length - k) := by
  rw [appendAll_eq (by simp [new])]
  simp [new, List.rtake]

end Journal

theorem journal_queries_newest_first (k : Nat) (given : Json) (records : List Entry)
    (u d : Option Text) (ps : List Phase) (n : Option Int) (count L : Nat) (hL : 0 < L) :
    ((Journal.new k given).appendAll records).entries = records.drop (records.length - k) ∧
    ((Journal.new k given).appendAll records).recent count =
      (records.drop (records.length - k)).reverse.take count ∧
    ((Journal.new k given).appendAll records).query (Query.ofFilters u d ps n L) =
      .ok (((records.drop (records.length - k)).reverse.filter
        fun e => decide (e.Matches u d ps n)).take L) ∧
    ((Journal.new k given).appendAll records).query (Query.ofFilters none none [] none L) =
      .ok (((Journal.new k given).appendAll records).recent L) := by
  have held := Journal.new_appendAll_entries k given records
  have one : max 1 (L : Int).toNat = L := by omega
  refine ⟨held, by rw [Journal.recent_ofNat, held], ?_, ?_⟩
  · rw [Journal.query_eq _ rfl, held, one, Query.selects_ofFilters]
  · have all : ∀ e ∈ ((Journal.new k given).appendAll records).entries.reverse,
        (Query.ofFilters none none [] none L).selects e = true := by
      simp [Query.selects_ofFilters, Entry.Matches]
    rw [Journal.query_eq _ rfl, Journal.recent_ofNat, one, List.filter_eq_self.2 all]

theorem journal_queries_newest_first_sample :
    0 < 2 ∧ ((Journal.new 3 (.int 3)).appendAll
        [⟨1, 1, "MID:a", some "MID:b", .direct, .str "MID:b"⟩,
         ⟨2, 1, "MID:b", some "MID:c", .direct, .str "MID:c"⟩,
         ⟨3, 1, "MID:a", some "MID:c", .viaClass, .str "MID:c"⟩,
         ⟨4, 1, "MID:a", none, .observer, .str "o"⟩]).query
        (Query.ofFilters (some "MID:a") none [] none 2) =
      .ok [⟨4, 1, "MID:a", none, .observer, .str "o"⟩,
        ⟨3, 1, "MID:a", some "MID:c", .viaClass, .str "MID:c"⟩] := by
  exact ⟨by decide,
    (journal_queries_newest_first 3 (.int 3) _ (some "MID:a") none [] none 0 2 (by decide)).2.2.1.trans rfl⟩

theorem query_limit_zero_gives_newest :
    ((Journal.new 10 (.int 10)).append ⟨1, 1, "MID:a", none, .observer, .str "o"⟩).query
        (Query.ofFilters none none [] none 0) = .ok [⟨1, 1, "MID:a", none, .observer, .str "o"⟩] ∧
    ((Journal.new 10 (.int 10)).append ⟨1, 1, "MID:a", none, .observer, .str "o"⟩).recent 0 = [] :=
  ⟨rfl, rfl⟩

end Invalidation
