import DispService.Backup.Stopped
import Mathlib.Data.List.Nodup
import Mathlib.Tactic.ByContra

/-! What `Confectioner` puts into a batch: the requested item splits the index. -/
namespace DispService.Backup

open Remove

namespace Sequence

variable {q : Sequence}

theorem nodup (q : Sequence) : q.index.Nodup :=
  q.ascending.imp Nat.ne_of_lt

/-- The item `n` comes right after the item `m`. -/
def Follows (q : Sequence) (m n : Nat) : Prop :=
  ∃ pre post, q.index = pre ++ m :: n :: post

theorem split_unique {pre pre' post post' : List Nat} {n : Nat}
    (h : q.index = pre ++ n :: post) (h' : q.index = pre' ++ n :: post') :
    pre = pre' ∧ post = post' := by
  have hnodup := q.nodup
  rw [h] at hnodup
  have hnot := (List.nodup_middle.mp hnodup).notMem
  rw [List.mem_append, not_or] at hnot
  have heq := (List.append_cons_inj_of_notMem hnot.1 hnot.2).mp (h.symm.trans h')
  exact ⟨heq.1, heq.2.2⟩

theorem Follows.unique {m n k : Nat} (h : q.Follows m n) (h' : q.Follows m k) : n = k := by
  obtain ⟨pre, post, hn⟩ := h
  obtain ⟨pre', post', hk⟩ := h'
  exact (List.cons.inj (split_unique hn hk).2).1

theorem Follows.lt {m n : Nat} (h : q.Follows m n) : m < n := by
  obtain ⟨pre, post, hn⟩ := h
  have hasc := q.ascending
  rw [hn] at hasc
  exact List.rel_of_pairwise_cons (List.pairwise_append.mp hasc).2.1 List.mem_cons_self

theorem Follows.mem {m n : Nat} (h : q.Follows m n) : m ∈ q.index ∧ n ∈ q.index := by
  obtain ⟨pre, post, hn⟩ := h
  rw [hn]
  simp

/-- The items from the requested one on. -/
theorem tail_eq_filter {pre post : List Nat} {number : Nat}
    (h : q.index = pre ++ number :: post) :
    number :: post = q.index.filter (number ≤ ·) := by
  have hasc := q.ascending
  rw [h] at hasc
  obtain ⟨-, htail, hacross⟩ := List.pairwise_append.mp hasc
  have hpre : pre.filter (number ≤ ·) = [] := by
    apply List.filter_eq_nil_iff.mpr
    intro n hn
    have hlt := hacross n hn number List.mem_cons_self
    simp only [decide_eq_true_eq]
    omega
  have hpost : (number :: post).filter (number ≤ ·) = number :: post := by
    apply List.filter_eq_self.mpr
    intro n hn
    rw [decide_eq_true_iff]
    cases List.mem_cons.mp hn with
    | inl heq => exact Nat.le_of_eq heq.symm
    | inr hin => exact Nat.le_of_lt (List.rel_of_pairwise_cons htail hin)
  rw [h, List.filter_append, hpre, hpost, List.nil_append]

theorem files_apart {m n : Nat} {f : File} (hm : f ∈ q.files m) (hn : f ∈ q.files n) : m = n := by
  obtain ⟨a, ha, rfl⟩ := List.mem_map.mp hm
  obtain ⟨b, hb, heq⟩ := List.mem_map.mp hn
  cases heq
  by_contra hne
  exact q.apart m n a hne ha hb

end Sequence

section Loaded

variable {q : Sequence} {n : Nat}

theorem loaded_failed (h : (q.loadFromFile n).failed = true) :
    Item.loaded q n = { m_number := n } := by
  unfold Item.loaded Item.load
  dsimp only
  split
  · rfl
  · rfl

theorem loaded_ok (hn : n ∈ q.index) (h : (q.loadFromFile n).failed = false) :
    Item.loaded q n =
      { m_number := n
        m_files := q.files n
        m_lair := some (q.m_uuid, n)
        m_data := if q.index.head? = some n then .backupItem else .partialBackupItem } := by
  unfold Item.loaded Item.load
  dsimp only
  rw [if_neg (not_not.mpr hn), if_neg (Bool.eq_false_iff.mp h)]

theorem loaded_files (f : File) (h : f ∈ (Item.loaded q n).m_files) : f ∈ q.files n := by
  unfold Item.loaded Item.load at h
  split at h
  · cases h
  · split at h
    · cases h
    · exact h

theorem unlinkItem_failed (h : (q.loadFromFile n).failed = true) :
    unlinkItem (Item.loaded q n) = [.rmdir .unnamed] := by
  rw [loaded_failed h]
  rfl

theorem unlinkItem_ok (hn : n ∈ q.index) (h : (q.loadFromFile n).failed = false) :
    unlinkItem (Item.loaded q n) =
      .rmdir (.item q.m_uuid n) :: (q.files n).map .unlink := by
  rw [loaded_ok hn h]
  rfl

theorem unlinkItem_removes (x : Item) : ∀ a ∈ unlinkItem x, a.removes = true := by
  intro a ha
  cases List.mem_cons.mp ha with
  | inl heq => exact heq ▸ rfl
  | inr hin =>
      obtain ⟨f, -, rfl⟩ := List.mem_map.mp hin
      rfl

end Loaded

section Collect

variable {q : Sequence} {number : Nat}

theorem collect_items (l : List Nat) (o : List Item) (z : Nat) :
    (Confectioner.collect q number l o z).1 = o ++ l.map (Item.loaded q) := by
  induction l generalizing o z with
  | nil => exact (List.append_nil o).symm
  | cons n l ih =>
      unfold Confectioner.collect
      rw [ih, List.append_assoc]
      rfl

theorem collect_absent {l : List Nat} (h : number ∉ l) (o : List Item) (z : Nat) :
    (Confectioner.collect q number l o z).2 = z := by
  induction l generalizing o z with
  | nil => rfl
  | cons n l ih =>
      rw [List.mem_cons, not_or] at h
      unfold Confectioner.collect
      rw [ih h.2, if_neg (Ne.symm h.1)]

theorem collect_position {pre post : List Nat} (h : number ∉ post) (o : List Item) (z : Nat) :
    (Confectioner.collect q number (pre ++ number :: post) o z).2 = o.length + pre.length := by
  induction pre generalizing o z with
  | nil =>
      have hcollect : Confectioner.collect q number ([] ++ number :: post) o z =
          Confectioner.collect q number post (o ++ [Item.loaded q number]) o.length := by
        rw [List.nil_append, Confectioner.collect, if_pos rfl]
      rw [hcollect, collect_absent h]
      rfl
  | cons n pre ih =>
      rw [List.cons_append, Confectioner.collect, ih, List.length_append, List.length_cons,
        List.length_cons]
      exact Nat.add_assoc _ _ _ |>.trans (congrArg _ (Nat.add_comm _ _))

/-- The whole sequence goes for its first item, and for a number that is none of its items. -/
theorem flavor_head {h : Nat} {rest : List Nat} (hindex : q.index = h :: rest)
    (hnumber : number = h ∨ number ∉ q.index) :
    Confectioner.flavor q number = [.rmdir (Item.loaded q h).getParent] := by
  have hposition : (Confectioner.collect q number q.index [] 0).2 = 0 := by
    cases hnumber with
    | inl heq =>
        have hnodup := q.nodup
        rw [hindex] at hnodup ⊢
        subst heq
        exact @collect_position q number [] rest (List.nodup_cons.mp hnodup).1 [] 0
    | inr hno => exact collect_absent hno [] 0
  unfold Confectioner.flavor
  dsimp only
  rw [if_pos hposition, collect_items, hindex]
  rfl

theorem flavor_nil (hindex : q.index = []) : Confectioner.flavor q number = [] := by
  unfold Confectioner.flavor
  rw [hindex]
  rfl

/-- For any other item the ones from it on go. -/
theorem flavor_tail {pre post : List Nat} (hindex : q.index = pre ++ number :: post)
    (hpre : pre ≠ []) :
    Confectioner.flavor q number =
      (q.index.filter (number ≤ ·)).flatMap fun n => unlinkItem (Item.loaded q n) := by
  have hnodup := q.nodup
  rw [hindex] at hnodup
  have hpost : number ∉ post :=
    fun hin => (List.nodup_middle.mp hnodup).notMem (List.mem_append_right pre hin)
  have hposition : (Confectioner.collect q number q.index [] 0).2 = pre.length := by
    rw [hindex]
    exact (collect_position hpost [] 0).trans (Nat.zero_add _)
  have hne : pre.length ≠ 0 := fun hno => hpre (List.length_eq_zero_iff.mp hno)
  unfold Confectioner.flavor
  dsimp only
  rw [hposition, if_neg hne, collect_items, List.nil_append, ← Sequence.tail_eq_filter hindex,
    hindex, List.map_append, List.drop_left' (List.length_map _), List.flatMap_map]

/-- With the chain kept, the neighbours of the requested item take part. -/
theorem shifter_split {c : Confectioner.Catalog} {version : Nat}
    (hversion : c.getVersion = .ok version) (hsupported : c.BACKUP_PROTO_V4 ≤ version)
    {pre post : List Nat} (hindex : q.index = pre ++ number :: post) :
    Confectioner.shifter c q number =
      .ok (Shifter.apply ⟨post.head?, pre.getLast?⟩ q number) := by
  have hnodup := q.nodup
  rw [hindex] at hnodup
  have hpre : number ∉ pre :=
    fun hin => (List.nodup_middle.mp hnodup).notMem (List.mem_append_left post hin)
  have hpost : number ∉ post :=
    fun hin => (List.nodup_middle.mp hnodup).notMem (List.mem_append_right pre hin)
  have hposition : q.index.idxOf number = pre.length := by
    rw [hindex, List.idxOf_append_of_notMem hpre, List.idxOf_cons_self]
    rfl
  have hnext : (if q.index.getLast? = some number then none else q.index[pre.length + 1]?) =
      post.head? := by
    rw [hindex]
    cases post with
    | nil => simp
    | cons n post =>
        rw [if_neg]
        · simp
        · intro hlast
          rw [List.getLast?_append_of_ne_nil _ (List.cons_ne_nil _ _), List.getLast?_cons_cons]
            at hlast
          exact hpost (List.mem_of_getLast? hlast)
  have hpreceding : (if pre.length = 0 then none else q.index[pre.length - 1]?) =
      pre.getLast? := by
    rw [hindex]
    split
    · rename_i hnil
      rw [List.length_eq_zero_iff.mp hnil]
      rfl
    · rename_i hne
      rw [List.getElem?_append_left (by omega), List.getLast?_eq_getElem?]
  unfold Confectioner.shifter
  rw [hversion]
  dsimp only
  rw [if_neg (Nat.not_lt.mpr hsupported), hposition, if_neg, hnext, hpreceding]
  rw [hindex, List.length_append, List.length_cons]
  omega

theorem shifter_supported {c : Confectioner.Catalog} {l : List Action}
    (h : Confectioner.shifter c q number = .ok l) :
    ∃ version, c.getVersion = .ok version ∧ c.BACKUP_PROTO_V4 ≤ version := by
  unfold Confectioner.shifter at h
  split at h
  · cases h
  · rename_i version hversion
    split at h
    · cases h
    · rename_i hle
      exact ⟨version, hversion, Nat.not_lt.mp hle⟩

theorem shifter_error {c : Confectioner.Catalog} {e : PrlResult}
    (h : Confectioner.shifter c q number = .error e) :
    e.failed = true ∧ e ≠ .backupBackupUuidNotFound := by
  unfold Confectioner.shifter at h
  split at h
  · cases h
    exact ⟨rfl, fun hno => by cases hno⟩
  · split at h
    · cases h
      exact ⟨rfl, fun hno => by cases hno⟩
    · dsimp only at h
      split at h
      · cases h
        exact ⟨rfl, fun hno => by cases hno⟩
      · cases h

theorem shifter_unsupported {c : Confectioner.Catalog}
    (h : ¬ ∃ version, c.getVersion = .ok version ∧ c.BACKUP_PROTO_V4 ≤ version) :
    ∃ e : PrlResult, Confectioner.shifter c q number = .error e ∧ e.failed = true ∧
      e ≠ .backupBackupUuidNotFound := by
  unfold Confectioner.shifter
  split
  · exact ⟨_, rfl, rfl, by decide⟩
  · rename_i version hversion
    rw [if_pos (Nat.not_le.mp fun hle => h ⟨version, hversion, hle⟩)]
    exact ⟨_, rfl, rfl, by decide⟩

theorem shifter_absent {c : Confectioner.Catalog} (h : number ∉ q.index) :
    ∃ e : PrlResult, Confectioner.shifter c q number = .error e ∧ e.failed = true ∧
      e ≠ .backupBackupUuidNotFound := by
  have hposition : q.index.idxOf number = q.index.length := List.idxOf_eq_length_iff.mpr h
  unfold Confectioner.shifter
  split
  · exact ⟨_, rfl, rfl, by decide⟩
  · split
    · exact ⟨_, rfl, rfl, by decide⟩
    · dsimp only
      rw [hposition, if_pos (Nat.le_refl _)]
      exact ⟨_, rfl, rfl, by decide⟩

end Collect

end DispService.Backup
