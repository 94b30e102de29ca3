import Bindle.Graph.Tables

/-!
# Collecting edges

What `Relations.insert` of `Bindle.Graph.Tables` does to both tables and the list of edges. All of
them change together or not at all, so at every moment they hold the same edges. This is the
invariant, `Relations.Records`; one step lemma says what one more edge does to it, and from it
follows what a list of edges does, in whatever order they come and however often one is repeated.
A loop over declarations may also fail, so it is described as a loop that enters a list of edges.

* `mem_insertPosition`, `pairwise_insertPosition`: positions as an ordered set.
* `PairTable.mem_row_insert`, `PairTable.mem_column_insert`: one more pair, from both sides.
* `Relations.Records`, `Relations.Records.insert`, `Relations.Records.foldl_insert`: the invariant,
  one edge and a list of them.
* `Relations.Enters`, `Relations.Enters.foldlM`: steps that may fail and do not, and their loop.
-/

namespace Bindle.Graph

/-! ## Tables of pairs -/

theorem mem_insertPosition {m n : Nat} {ns : List Nat} :
    m ∈ insertPosition n ns ↔ m = n ∨ m ∈ ns := by
  unfold insertPosition
  split
  · rename_i hmem
    exact (or_iff_right_of_imp fun heq => heq ▸ hmem).symm
  · exact List.mem_orderedInsert _

theorem pairwise_insertPosition {n : Nat} {ns : List Nat} (h : ns.Pairwise (· < ·)) :
    (insertPosition n ns).Pairwise (· < ·) := by
  unfold insertPosition
  split
  · exact h
  · rename_i hnew
    have hnodup : (ns.orderedInsert (· ≤ ·) n).Nodup :=
      (List.perm_orderedInsert _ n ns).nodup_iff.2
        (List.nodup_cons.2 ⟨hnew, h.imp Nat.ne_of_lt⟩)
    have hle := (h.imp Nat.le_of_lt).orderedInsert n ns
    exact (hle.and hnodup).imp fun hboth => Nat.lt_of_le_of_ne hboth.1 hboth.2

/-- What is done to one row is done to no other. -/
theorem getD_modify {rows : List (List Nat)} {i : Nat} (h : i < rows.length)
    (f : List Nat → List Nat) (k : Nat) :
    (rows.modify i f).getD k [] = if k = i then f (rows.getD k []) else rows.getD k [] := by
  rw [List.getD_eq_getElem?_getD, List.getD_eq_getElem?_getD, List.getElem?_modify]
  split
  · rename_i heq
    subst heq
    simp [List.getElem?_eq_getElem h]
  · rename_i hne
    simp [Ne.symm hne]

theorem getD_replicate (n k : Nat) : (List.replicate n ([] : List Nat)).getD k [] = [] := by
  rw [List.getD_eq_getElem?_getD, List.getElem?_replicate]
  split <;> rfl

namespace PairTable

variable {t : PairTable} {i j k m : Nat}

theorem mem_row_insert (h : i < t.rows.length) :
    m ∈ (t.insert i j).row k ↔ k = i ∧ m = j ∨ m ∈ t.row k := by
  rw [row, insert, getD_modify h, row]
  split
  · rename_i heq
    rw [mem_insertPosition, and_iff_right heq]
  · rename_i hne
    rw [or_iff_right fun hboth => hne hboth.1]

theorem mem_column_insert (h : j < t.columns.length) :
    m ∈ (t.insert i j).column k ↔ k = j ∧ m = i ∨ m ∈ t.column k := by
  rw [column, insert, getD_modify h, column]
  split
  · rename_i heq
    rw [mem_insertPosition, and_iff_right heq]
  · rename_i hne
    rw [or_iff_right fun hboth => hne hboth.1]

/-- Every row and every column is in ascending order. -/
structure IsAscending (t : PairTable) : Prop where
  row : ∀ i, (t.row i).Pairwise (· < ·)
  column : ∀ j, (t.column j).Pairwise (· < ·)

theorem IsAscending.insert (h : t.IsAscending) (hi : i < t.rows.length)
    (hj : j < t.columns.length) : (t.insert i j).IsAscending where
  row k := by
    rw [PairTable.row, PairTable.insert, getD_modify hi]
    split
    · exact pairwise_insertPosition (h.row k)
    · exact h.row k
  column k := by
    rw [PairTable.column, PairTable.insert, getD_modify hj]
    split
    · exact pairwise_insertPosition (h.column k)
    · exact h.column k

end PairTable

/-! ## One more edge -/

namespace Relations

variable {r : Relations} {l k : Link} {ls : List Link} {L : Link → Prop}

/-- What both tables and the list hold: exactly these edges, each once and in order. -/
structure Records (r : Relations) (L : Link → Prop) : Prop where
  row : ∀ l, l.target ∈ (r.table l.kind).row l.source ↔ L l
  column : ∀ l, l.source ∈ (r.table l.kind).column l.target ↔ L l
  links : ∀ l, l ∈ r.links ↔ L l
  ascending : ∀ kind, (r.table kind).IsAscending
  nodup : r.links.Nodup

/-- There is a row and a column for the edge. -/
def HasRoom (r : Relations) (l : Link) : Prop :=
  l.source < (r.table l.kind).rows.length ∧ l.target < (r.table l.kind).columns.length

theorem insert_of_new (h : l.target ∉ (r.table l.kind).row l.source) :
    r.insert l = ⟨Function.update r.table l.kind ((r.table l.kind).insert l.source l.target),
      r.links ++ [l]⟩ :=
  if_neg h

theorem hasRoom_insert : (r.insert l).HasRoom k ↔ r.HasRoom k := by
  unfold Relations.insert
  split
  · exact Iff.rfl
  · by_cases hkind : k.kind = l.kind
    · simp [HasRoom, hkind, PairTable.insert]
    · simp [HasRoom, hkind]

theorem records_empty (groups parcels : Nat) :
    (Relations.empty groups parcels).Records fun _ => False := by
  have htable : ∀ kind, ∃ m n, (empty groups parcels).table kind = .empty m n := by
    rintro ⟨⟩ <;> exact ⟨_, _, rfl⟩
  have hrow : ∀ kind i, ((empty groups parcels).table kind).row i = [] := by
    intro kind i
    obtain ⟨m, n, hkind⟩ := htable kind
    rw [hkind, PairTable.row, PairTable.empty, getD_replicate]
  have hcolumn : ∀ kind j, ((empty groups parcels).table kind).column j = [] := by
    intro kind j
    obtain ⟨m, n, hkind⟩ := htable kind
    rw [hkind, PairTable.column, PairTable.empty, getD_replicate]
  constructor
  · simp [hrow]
  · simp [hcolumn]
  · simp [empty]
  · exact fun kind => ⟨by simp [hrow], by simp [hcolumn]⟩
  · exact List.nodup_nil

/-- An edge enters both sides of its table and the list together, so that they go on saying the
same. -/
theorem Records.insert (h : r.Records L) (hroom : r.HasRoom l) :
    (r.insert l).Records fun k => k = l ∨ L k := by
  by_cases hmem : l.target ∈ (r.table l.kind).row l.source
  · have hsame : (fun k => k = l ∨ L k) = L := by
      funext k
      exact propext (or_iff_right_of_imp fun heq => heq ▸ (h.row l).1 hmem)
    rw [hsame, Relations.insert, if_pos hmem]
    exact h
  · rw [insert_of_new hmem]
    have hother : ∀ k : Link, k.kind ≠ l.kind → ¬k = l := fun k hkind heq => hkind (heq ▸ rfl)
    have hself : ∀ k : Link, k.kind = l.kind →
        (k = l ↔ k.source = l.source ∧ k.target = l.target) := by
      rintro ⟨_, i, j⟩ rfl
      cases l
      simp
    constructor
    · intro k
      by_cases hkind : k.kind = l.kind
      · simp only [hkind, Function.update_self, PairTable.mem_row_insert hroom.1, hself k hkind,
          ← h.row k]
      · simp only [Function.update_of_ne hkind, h.row k, or_iff_right (hother k hkind)]
    · intro k
      by_cases hkind : k.kind = l.kind
      · simp only [hkind, Function.update_self, PairTable.mem_column_insert hroom.2, hself k hkind,
          ← h.column k, and_comm]
      · simp only [Function.update_of_ne hkind, h.column k, or_iff_right (hother k hkind)]
    · intro k
      rw [List.mem_append, List.mem_singleton, h.links, or_comm]
    · intro kind
      by_cases hkind : kind = l.kind
      · simp only [hkind, Function.update_self]
        exact (h.ascending l.kind).insert hroom.1 hroom.2
      · simp only [Function.update_of_ne hkind]
        exact h.ascending kind
    · have hnew : l ∉ r.links := fun hl => hmem ((h.row l).2 ((h.links l).1 hl))
      exact h.nodup.append (List.nodup_singleton l) (List.disjoint_singleton.2 hnew)

/-- A list of edges is entered one by one. -/
theorem Records.foldl_insert (h : r.Records L) (hroom : ∀ l ∈ ls, r.HasRoom l) :
    (ls.foldl Relations.insert r).Records fun k => k ∈ ls ∨ L k := by
  induction ls generalizing r L with
  | nil => simpa using h
  | cons l ls ih =>
    obtain ⟨hl, hls⟩ := List.forall_mem_cons.1 hroom
    have hrest := ih (h.insert hl) fun k hk => hasRoom_insert.2 (hls k hk)
    simpa only [List.foldl_cons, List.mem_cons, or_left_comm, or_assoc] using hrest

/-! ## What declarations add -/

/-- The step never fails, and enters edges of which `L` is true, all of them. -/
def Enters (step : Relations → Except UnknownReference Relations) (L : Link → Prop) : Prop :=
  ∀ r, ∃ ls : List Link, step r = .ok (ls.foldl insert r) ∧ ∀ l, l ∈ ls ↔ L l

theorem Enters.congr {step : Relations → Except UnknownReference Relations} {L' : Link → Prop}
    (h : Enters step L) (hL : ∀ l, L l ↔ L' l) : Enters step L' := by
  intro r
  obtain ⟨ls, hstep, hls⟩ := h r
  exact ⟨ls, hstep, fun l => (hls l).trans (hL l)⟩

/-- A loop whose steps enter edges enters those of all steps. -/
theorem Enters.foldlM {α : Type} {step : Relations → α → Except UnknownReference Relations}
    {as : List α} {D : α → Link → Prop} (h : ∀ a ∈ as, Enters (step · a) (D a)) :
    Enters (as.foldlM step) fun l => ∃ a ∈ as, D a l := by
  induction as with
  | nil => exact fun r => ⟨[], rfl, by simp⟩
  | cons a as ih =>
    intro r
    obtain ⟨ha, has⟩ := List.forall_mem_cons.1 h
    obtain ⟨ls, hstep, hls⟩ := ha r
    obtain ⟨rest, hrun, hrest⟩ := ih has (ls.foldl insert r)
    refine ⟨ls ++ rest, ?_, fun l => ?_⟩
    · beta_reduce at hstep ⊢
      rw [List.foldlM_cons, hstep, List.foldl_append]
      exact hrun
    · simp only [List.mem_append, hls, hrest, List.exists_mem_cons_iff]

end Relations

end Bindle.Graph
