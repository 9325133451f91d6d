import DispService.Lib.Table
import DispService.Product.Distinct
import Mathlib.Algebra.Group.Action.Defs
import Mathlib.Algebra.Order.BigOperators.Group.List
import Mathlib.Algebra.Order.Ring.Nat
import Mathlib.Data.Finset.Sort
import Mathlib.Data.String.Basic

/-! The bitmaps that an incremental backup can start from. The images report their bitmaps as one
tree, and what is counted as often as there are archives is taken to be in all of them. -/
namespace DispService.Product.Bitmap

open Lib

/-- A property tree: a value, and children under names. -/
inductive Tree where
  | node (data : String) (children : List (String × Tree))

namespace Tree

def data : Tree → String
  | node data _ => data

def children : Tree → List (String × Tree)
  | node _ children => children

def get_child_optional (t : Tree) (name : String) : Option Tree :=
  t.children.lookup name

end Tree

/-- The text up to its first null. -/
def c_str (s : String) : String :=
  String.ofList (s.toList.takeWhile fun c => c != '\x00')

namespace Getter

def value (m : Table Nat) (u : String) : Nat :=
  (m.lookup u).getD 0

/-- The loop over the bitmaps of an image. -/
def addBitmaps (m : Table Nat) (b : Tree) : Table Nat :=
  b.children.foldl (fun m bit =>
    let q := c_str bit.2.data
    m.insert q (value m q + 1)) m

/-- The loop over the images; nothing is counted where one has no bitmaps. -/
def countImages : List (String × Tree) → Table Nat → Option (Table Nat)
  | [], m => some m
  | it :: r, m =>
      if it.1 != "image" then countImages r m
      else
        match it.2.get_child_optional "bitmaps" with
        | none => none
        | some b => countImages r (addBitmaps m b)

/-- `process` of what `read_json` makes of the output, with the archives of the product. -/
def process (tibs : List (Component × QString)) (data : Option Tree) : List String :=
  match data with
  | none => []
  | some r =>
      match countImages r.children ∅ with
      | none => []
      | some m => (m.keys.sort (· ≤ ·)).filter fun u => value m u == tibs.length

end Getter

def images (r : Tree) : List Tree :=
  (r.children.filter fun it => it.1 == "image").map Prod.snd

/-- The bitmaps an image reports, none where it reports no list. -/
def bitmaps (image : Tree) : Option (List String) :=
  (image.get_child_optional "bitmaps").map fun b => b.children.map fun bit => c_str bit.2.data

/-- A bitmap that every image has. -/
def Everywhere (r : Tree) (u : String) : Prop :=
  images r ≠ [] ∧ ∀ i ∈ images r, ∃ l, bitmaps i = some l ∧ u ∈ l

/-- How often a bitmap is listed over all images. -/
def occurrences (r : Tree) (u : String) : Nat :=
  ((images r).map fun i => ((bitmaps i).getD []).count u).sum

/-- The bitmaps that every image has, each of them once. -/
def Exact (r : Tree) (output : List String) : Prop :=
  output.Nodup ∧ ∀ u, u ∈ output ↔ Everywhere r u

/-- The number tells the bitmaps that every image has from the others. -/
structure Telling (r : Tree) (number : Nat) : Prop where
  everywhere : ∀ u, Everywhere r u → occurrences r u = number
  missing : ∀ u, ¬ Everywhere r u → occurrences r u = number → occurrences r u = 0

section Count

variable {r : Tree} {u : String} {m m' : Table Nat} {number : Nat}

theorem value_insert {q : String} {n : Nat} :
    Getter.value (m.insert q n) u = if u = q then n else Getter.value m u := by
  unfold Getter.value
  rw [Table.lookup_insert]
  split <;> rfl

theorem addBitmaps_value {b : Tree} : Getter.value (Getter.addBitmaps m b) u =
    Getter.value m u + (b.children.map fun bit => c_str bit.2.data).count u := by
  unfold Getter.addBitmaps
  induction b.children generalizing m with
  | nil => rfl
  | cons bit bits ih =>
      rw [List.foldl_cons, ih, value_insert, List.map_cons, List.count_cons]
      by_cases hu : u = c_str bit.2.data
      · rw [if_pos hu, hu, beq_self_eq_true, if_pos rfl]
        omega
      · rw [if_neg hu, if_neg (by simpa using Ne.symm hu)]
        omega

theorem countImages_some {l : List (String × Tree)} (h : Getter.countImages l m = some m') :
    Getter.value m' u = Getter.value m u +
      (((l.filter fun it => it.1 == "image").map Prod.snd).map
        fun i => ((bitmaps i).getD []).count u).sum := by
  induction l generalizing m with
  | nil =>
      cases h
      rfl
  | cons it l ih =>
      rw [Getter.countImages] at h
      by_cases himage : it.1 = "image"
      · rw [if_neg (by simp [himage])] at h
        cases hchild : it.2.get_child_optional "bitmaps" with
        | none =>
            rw [hchild] at h
            cases h
        | some b =>
            rw [hchild] at h
            rw [ih h, addBitmaps_value, List.filter_cons_of_pos (by simpa using himage),
              List.map_cons, List.map_cons, List.sum_cons, bitmaps, hchild]
            simp only [Option.map_some, Option.getD_some]
            omega
      · rw [if_pos (by simpa using himage)] at h
        rw [ih h, List.filter_cons_of_neg (by simpa using himage)]

theorem countImages_none {l : List (String × Tree)} : Getter.countImages l m = none ↔
    ∃ i ∈ (l.filter fun it => it.1 == "image").map Prod.snd, bitmaps i = none := by
  induction l generalizing m with
  | nil => simp [Getter.countImages]
  | cons it l ih =>
      rw [Getter.countImages]
      by_cases himage : it.1 = "image"
      · rw [if_neg (by simp [himage]), List.filter_cons_of_pos (by simpa using himage),
          List.map_cons]
        cases hchild : it.2.get_child_optional "bitmaps" with
        | none => simp [bitmaps, hchild]
        | some b =>
            simp only
            rw [ih]
            simp [bitmaps, hchild]
      · rw [if_pos (by simpa using himage), ih, List.filter_cons_of_neg (by simpa using himage)]

theorem mem_keys : u ∈ m.keys ↔ u ∈ m :=
  Finmap.mem_keys

/-- The keys are what has been listed. -/
theorem countImages_mem {l : List (String × Tree)} (positive : ∀ u, u ∈ m ↔ Getter.value m u ≠ 0)
    (h : Getter.countImages l m = some m') : u ∈ m' ↔ Getter.value m' u ≠ 0 := by
  have hadd : ∀ (b : Tree) (m : Table Nat), (∀ u, u ∈ m ↔ Getter.value m u ≠ 0) →
      ∀ u, u ∈ Getter.addBitmaps m b ↔ Getter.value (Getter.addBitmaps m b) u ≠ 0 := by
    intro b
    unfold Getter.addBitmaps
    induction b.children with
    | nil => exact fun m hm => hm
    | cons bit bits ih =>
        intro m hm
        rw [List.foldl_cons]
        refine ih _ fun v => ?_
        rw [Table.mem_insert_iff, value_insert]
        by_cases hv : v = c_str bit.2.data
        · simp [hv]
        · simp [hv, hm v]
  induction l generalizing m with
  | nil =>
      cases h
      exact positive u
  | cons it l ih =>
      rw [Getter.countImages] at h
      split at h
      · exact ih positive h
      · split at h
        · cases h
        · next b _ => exact ih (hadd b m positive) h

/-- The getter yields what is listed as often as there are archives. -/
theorem mem_process {tibs : List (Component × QString)} (listed : ∀ i ∈ images r, bitmaps i ≠ none) :
    (Getter.process tibs (some r)).Nodup ∧ (u ∈ Getter.process tibs (some r) ↔
      occurrences r u ≠ 0 ∧ occurrences r u = tibs.length) := by
  have hcount : Getter.countImages r.children ∅ ≠ none := by
    intro hnone
    obtain ⟨i, hi, hbitmaps⟩ := countImages_none.mp hnone
    exact listed i hi hbitmaps
  obtain ⟨m, hm⟩ := Option.ne_none_iff_exists'.mp hcount
  have hvalue : Getter.value m u = occurrences r u := by
    have h := countImages_some (u := u) hm
    rwa [show Getter.value ∅ u = 0 from by simp [Getter.value], Nat.zero_add] at h
  have hmem : u ∈ m ↔ Getter.value m u ≠ 0 :=
    countImages_mem (fun v => by simp [Getter.value]) hm
  simp only [Getter.process, hm]
  refine ⟨(Finset.sort_nodup _ _).filter _, ?_⟩
  rw [List.mem_filter, Finset.mem_sort, mem_keys, hmem, hvalue, beq_iff_eq]

theorem process_none {tibs : List (Component × QString)} (h : ∃ i ∈ images r, bitmaps i = none) :
    Getter.process tibs (some r) = [] := by
  simp only [Getter.process, countImages_none.mpr h]

/-- A bitmap that every image has is listed. -/
theorem Everywhere.listed (h : Everywhere r u) : occurrences r u ≠ 0 := by
  obtain ⟨hne, hall⟩ := h
  obtain ⟨i, hi⟩ := List.exists_mem_of_ne_nil _ hne
  obtain ⟨l, hl, hu⟩ := hall i hi
  intro hzero
  have hcount := List.sum_eq_zero_iff.mp hzero _ (List.mem_map_of_mem hi)
  rw [hl, Option.getD_some] at hcount
  exact List.count_eq_zero.mp hcount hu

/-- Where no image lists a bitmap twice, the number of the images is telling. -/
theorem Telling.of_nodup (listed : ∀ i ∈ images r, ∃ l, bitmaps i = some l ∧ l.Nodup) :
    Telling r (images r).length := by
  have hle : ∀ u, ∀ i ∈ images r, ((bitmaps i).getD []).count u ≤ 1 := by
    intro u i hi
    obtain ⟨l, hl, hnodup⟩ := listed i hi
    rw [hl, Option.getD_some]
    exact List.nodup_iff_count_le_one.mp hnodup u
  constructor
  · intro u hu
    have hone : ∀ x ∈ (images r).map fun i => ((bitmaps i).getD []).count u, x = 1 := by
      intro x hx
      obtain ⟨i, hi, rfl⟩ := List.mem_map.mp hx
      obtain ⟨l, hl, hmem⟩ := hu.2 i hi
      have hpos : 0 < l.count u := List.count_pos_iff.mpr hmem
      have hle := hle u i hi
      rw [hl, Option.getD_some] at hle ⊢
      omega
    rw [occurrences, List.eq_replicate_of_mem hone, List.sum_replicate, List.length_map,
      smul_eq_mul, Nat.mul_one]
  · intro u hu htotal
    by_contra hne
    refine hu ⟨fun hnil => hne (by rw [occurrences, hnil]; rfl), fun i hi => ?_⟩
    obtain ⟨l, hl, -⟩ := listed i hi
    refine ⟨l, hl, ?_⟩
    by_contra hmem
    have hlt : ((images r).map fun i => ((bitmaps i).getD []).count u).sum <
        ((images r).map fun _ => 1).sum := by
      refine List.sum_lt_sum _ _ (hle u) ⟨i, hi, ?_⟩
      rw [hl, Option.getD_some, List.count_eq_zero.mpr hmem]
      exact Nat.one_pos
    rw [List.map_const', List.sum_replicate, smul_eq_mul, Nat.mul_one] at hlt
    unfold occurrences at htotal
    omega

end Count

/-- The getter yields just the bitmaps that every image has, if an image reports no list at all or
the number of the archives tells them by how often they are listed. -/
theorem process_exact_iff (tibs : List (Component × QString)) (r : Tree) :
    Exact r (Getter.process tibs (some r)) ↔
      (∃ i ∈ images r, bitmaps i = none) ∨ Telling r tibs.length := by
  by_cases hnone : ∃ i ∈ images r, bitmaps i = none
  · refine iff_of_true ?_ (.inl hnone)
    rw [process_none hnone]
    refine ⟨List.nodup_nil, fun u => iff_of_false List.not_mem_nil fun h => ?_⟩
    obtain ⟨i, hi, hbitmaps⟩ := hnone
    obtain ⟨l, hl, -⟩ := h.2 i hi
    rw [hbitmaps] at hl
    cases hl
  · have listed : ∀ i ∈ images r, bitmaps i ≠ none := fun i hi h => hnone ⟨i, hi, h⟩
    constructor
    · rintro ⟨-, hexact⟩
      refine .inr ⟨fun u hu => ?_, fun u hu htotal => ?_⟩
      · exact ((mem_process listed).2.mp ((hexact u).mpr hu)).2
      · by_contra hne
        exact hu ((hexact u).mp ((mem_process listed).2.mpr ⟨hne, htotal⟩))
    · rintro (h | telling)
      · exact absurd h hnone
      · refine ⟨(mem_process (u := "") listed).1, fun u => ?_⟩
        rw [(mem_process listed).2]
        constructor
        · rintro ⟨hne, htotal⟩
          by_contra hu
          exact hne (telling.missing u hu htotal)
        · exact fun hu => ⟨hu.listed, telling.everywhere u hu⟩

/-- A report of two images, the first of which lists the bitmap twice and the second not at all. -/
def listedTwice : Tree :=
  .node "" [("image", .node "" [("bitmaps", .node "" [("", .node "u" []), ("", .node "u" [])])]),
    ("image", .node "" [("bitmaps", .node "" [])])]

def twoImages : Model where
  store := ['/', 's']
  home := ['/', 'h']
  hardDisks := [imageNamed 0 ['/', 'a'], imageNamed 1 ['/', 'b']]
  suffix := .tib

/-- The bitmap is taken to be in both images. -/
theorem process_counts_twice : ∃ tibs, twoImages.getVmTibs 3 = some tibs ∧
    ¬ Exact listedTwice (Getter.process tibs (some listedTwice)) := by
  obtain ⟨tibs, htibs, assigned⟩ := @getVmTibs_assigned twoImages 3 (by decide)
  have hlength : tibs.length = 2 := by
    rw [← List.length_map (f := fun t : Component × QString => t.1.device), assigned.devices]
    rfl
  refine ⟨tibs, htibs, fun hexact => ?_⟩
  have hlisted : ∀ i ∈ images listedTwice, bitmaps i ≠ none := by
    intro i hi
    rcases List.mem_cons.mp hi with rfl | hi
    · exact Option.some_ne_none _
    · cases List.mem_singleton.mp hi
      exact Option.some_ne_none _
  have hmem : "u" ∈ Getter.process tibs (some listedTwice) := by
    refine (mem_process hlisted).2.mpr ⟨by decide +kernel, ?_⟩
    rw [hlength]
    decide +kernel
  obtain ⟨l, hl, hu⟩ := ((hexact.2 "u").mp hmem).2 (.node "" [("bitmaps", .node "" [])])
    (.tail _ (.head _))
  cases hl
  cases hu

end DispService.Product.Bitmap
