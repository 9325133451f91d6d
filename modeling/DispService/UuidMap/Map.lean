import Mathlib.Data.Finset.Image
import DispService.Lib.Records

/-! The file that maps uuids to ids of containers: adds and deletes act at the place where the
search before them stopped. -/
namespace DispService.UuidMap

open DispService.Lib

/-- `Uuid_t` -/
abbrev Uuid := {u : List UInt8 // u.length = 16}

/-- What an object of type `uuidmap_t` has in memory. -/
abbrev Memory := {m : List UInt8 // m.length = 20}

def recordSize : Nat := 20

/-- A number as it is stored, the lowest byte first. -/
def idBytes (id : UInt32) : List UInt8 :=
  [id.toUInt8, (id >>> 8).toUInt8, (id >>> 16).toUInt8, (id >>> 24).toUInt8]

structure uuidmap_t where
  uuid : Uuid
  id : UInt32
deriving DecidableEq

def uuidmap_t.bytes (r : uuidmap_t) : List UInt8 := r.uuid.1 ++ idBytes r.id

/-- `memset`: the record of a free place. -/
def zero : uuidmap_t := ⟨⟨List.replicate 16 0, List.length_replicate⟩, 0⟩

abbrev File := OpenFile UInt8

/-- The loop of `file_find_uuidmap`; `tmp` is the record it reads into. -/
def findFrom (uuidmap : uuidmap_t) (tmp : List UInt8) (f : File) : Bool × File :=
  let r := f.read recordSize
  if h : r.1 = [] then (false, r.2)
  else
    let tmp := r.1 ++ tmp.drop r.1.length
    if tmp.take 16 = uuidmap.uuid.1 ∧ tmp.drop 16 = idBytes uuidmap.id then (true, r.2)
    else findFrom uuidmap tmp r.2
termination_by f.bytes.length - f.pos
decreasing_by exact f.read_lt recordSize h

/-- `tmp` is not initialized. -/
def fileFindUuidmap (tmp : Memory) (uuidmap : uuidmap_t) (f : File) : Bool × File :=
  findFrom uuidmap tmp.1 f.rewind

def writeRecord (uuidmap : uuidmap_t) (f : File) : Int × File :=
  (recordSize, f.write 0 uuidmap.bytes)

def fileAddUuidmap (tmp : Memory) (uuidmap : uuidmap_t) (f : File) : Int × File :=
  match fileFindUuidmap tmp zero f with
  | (true, f) =>
      match f.back recordSize with
      | none => (-1, f)
      | some f => writeRecord uuidmap f
  | (false, f) => writeRecord uuidmap f

def fileDelUuidmap (f : File) : Int × File :=
  match f.back recordSize with
  | none => (-1, f)
  | some f => writeRecord zero f

/-- `file_update_uuidmap` between the lock and its release; the two searches have a `tmp` each. -/
def fileUpdateUuidmap (tmp tmp' : Memory) (uuidmap : uuidmap_t) (del : Bool) (f : File) :
    Int × File :=
  match fileFindUuidmap tmp uuidmap f with
  | (true, f) => if del then fileDelUuidmap f else (1, f)
  | (false, f) => if del then (0, f) else fileAddUuidmap tmp' uuidmap f

/-- A call of `update_uuidmap`, not with the record of a free place. -/
structure Update where
  uuid : Uuid
  id : UInt32
  del : Bool
  tmp : Memory
  tmp' : Memory
  nonzero : (⟨uuid, id⟩ : uuidmap_t) ≠ zero

def Update.uuidmap (u : Update) : uuidmap_t := ⟨u.uuid, u.id⟩

def updateUuidmap (f : File) (u : Update) : File :=
  (fileUpdateUuidmap u.tmp u.tmp' u.uuidmap u.del f).2

/-- The file after calls on an empty one. -/
def updated (us : List Update) : File := us.foldl updateUuidmap {}

def expect (s : Finset uuidmap_t) (u : Update) : Finset uuidmap_t :=
  if u.del then s.erase u.uuidmap else insert u.uuidmap s

/-- What is added and not deleted. -/
def expected (us : List Update) : Finset uuidmap_t := us.foldl expect ∅

section Bytes

variable {r r' : uuidmap_t}

theorem length_idBytes (id : UInt32) : (idBytes id).length = 4 := rfl

theorem length_bytes (r : uuidmap_t) : r.bytes.length = recordSize := by
  unfold uuidmap_t.bytes
  rw [List.length_append, r.uuid.2, length_idBytes]
  rfl

theorem idBytes_inj {m n : UInt32} (h : idBytes m = idBytes n) : m = n := by
  simp only [idBytes, List.cons.injEq, ← UInt8.toNat_inj, UInt32.toNat_toUInt8,
    UInt32.toNat_shiftRight, and_true] at h
  obtain ⟨h0, h1, h2, h3⟩ := h
  have hm := m.toNat_lt
  have hn := n.toNat_lt
  apply UInt32.toNat_inj.mp
  have h8 : UInt32.toNat 8 % 32 = 8 := rfl
  have h16 : UInt32.toNat 16 % 32 = 16 := rfl
  have h24 : UInt32.toNat 24 % 32 = 24 := rfl
  rw [Nat.shiftRight_eq_div_pow, Nat.shiftRight_eq_div_pow, h8] at h1
  rw [Nat.shiftRight_eq_div_pow, Nat.shiftRight_eq_div_pow, h16] at h2
  rw [Nat.shiftRight_eq_div_pow, Nat.shiftRight_eq_div_pow, h24] at h3
  omega

/-- The comparison of a record in memory. -/
theorem same_iff {tmp : List UInt8} :
    (tmp.take 16 = r.uuid.1 ∧ tmp.drop 16 = idBytes r.id) ↔ tmp = r.bytes := by
  unfold uuidmap_t.bytes
  constructor
  · rintro ⟨htake, hdrop⟩
    rw [← htake, ← hdrop, List.take_append_drop]
  · rintro rfl
    exact ⟨List.take_left' r.uuid.2, List.drop_left' r.uuid.2⟩

theorem bytes_inj (h : r.bytes = r'.bytes) : r = r' := by
  obtain ⟨huuid, hid⟩ := List.append_inj h (r.uuid.2.trans r'.uuid.2.symm)
  obtain ⟨uuid, id⟩ := r
  obtain ⟨uuid', id'⟩ := r'
  obtain rfl := Subtype.ext huuid
  obtain rfl := idBytes_inj hid
  rfl

end Bytes

/-- The places of a file: each has a record or is free. -/
abbrev Places := List (Option {r : uuidmap_t // r ≠ zero})

def place : Option {r : uuidmap_t // r ≠ zero} → List UInt8
  | none => zero.bytes
  | some r => r.1.bytes

namespace Places

/-- The file has these places, and the offset stands between two of them. -/
def In (ps : Places) (f : File) : Prop :=
  ∃ pre post, ps = pre ++ post ∧ f.Between recordSize (pre.map place) (post.map place)

end Places

section Find

variable {x : Option {r : uuidmap_t // r ≠ zero}} {pre post : Places} {f : File}

theorem place_inj {x y : Option {r : uuidmap_t // r ≠ zero}} (h : place x = place y) : x = y := by
  cases x with
  | none =>
      cases y with
      | none => rfl
      | some s => exact absurd (bytes_inj h).symm s.2
  | some r =>
      cases y with
      | none => exact absurd (bytes_inj h) r.2
      | some s => exact congrArg some (Subtype.ext (bytes_inj h))

theorem length_place (x : Option {r : uuidmap_t // r ≠ zero}) : (place x).length = recordSize := by
  cases x with
  | none => exact length_bytes zero
  | some r => exact length_bytes r.1

/-- The search stops behind the first place with the record, or at the end. -/
theorem findFrom_spec {key : uuidmap_t} (hkey : key.bytes = place x) {tmp : List UInt8}
    (htmp : tmp.length = recordSize)
    (h : f.Between recordSize (pre.map place) (post.map place)) :
    (∃ mid rest, post = mid ++ x :: rest ∧ x ∉ mid ∧ (findFrom key tmp f).1 = true ∧
      (findFrom key tmp f).2.Between recordSize ((pre ++ mid ++ [x]).map place)
        (rest.map place)) ∨
    (x ∉ post ∧ (findFrom key tmp f).1 = false ∧
      (findFrom key tmp f).2.Between recordSize ((pre ++ post).map place) []) := by
  induction post generalizing pre f tmp with
  | nil =>
      obtain ⟨hread, hbetween⟩ := h.read_nil
      right
      rw [findFrom, dif_pos hread]
      exact ⟨List.not_mem_nil, rfl, by simpa using hbetween⟩
  | cons y post ih =>
      obtain ⟨hread, hbetween⟩ := h.read_cons
      have hne : (f.read recordSize).1 ≠ [] := by
        rw [hread]
        exact List.ne_nil_of_length_pos (by rw [length_place]; decide)
      have hfull : (f.read recordSize).1 ++ tmp.drop (f.read recordSize).1.length = place y := by
        rw [hread, length_place, List.drop_eq_nil_of_le (le_of_eq htmp), List.append_nil]
      have hnext : (f.read recordSize).2.Between recordSize ((pre ++ [y]).map place)
          (post.map place) := by
        rwa [List.map_append]
      rw [findFrom, dif_neg hne]
      dsimp only
      rw [hfull]
      by_cases hsame : (place y).take 16 = key.uuid.1 ∧ (place y).drop 16 = idBytes key.id
      · have hxy : y = x := place_inj ((same_iff.mp hsame).trans hkey)
        subst hxy
        left
        rw [if_pos hsame]
        exact ⟨[], post, rfl, List.not_mem_nil, rfl, by simpa using hnext⟩
      · have hxy : x ≠ y := by
          rintro rfl
          exact hsame (same_iff.mpr hkey.symm)
        rw [if_neg hsame]
        rcases ih (length_place y) hnext with ⟨mid, rest, rfl, hmid, hfound, hat⟩ | ⟨hno, hfound, hat⟩
        · left
          exact ⟨y :: mid, rest, rfl, by simp [hxy, hmid], hfound, by simpa using hat⟩
        · right
          exact ⟨by simp [hxy, hno], hfound, by simpa using hat⟩

/-- What a whole search finds. -/
theorem fileFindUuidmap_spec (tmp : Memory) {key : uuidmap_t} (hkey : key.bytes = place x)
    {ps : Places} (h : ps.In f) :
    (∃ pre post, ps = pre ++ x :: post ∧ x ∉ pre ∧ (fileFindUuidmap tmp key f).1 = true ∧
      (fileFindUuidmap tmp key f).2.Between recordSize ((pre ++ [x]).map place)
        (post.map place)) ∨
    (x ∉ ps ∧ (fileFindUuidmap tmp key f).1 = false ∧
      (fileFindUuidmap tmp key f).2.Between recordSize (ps.map place) []) := by
  obtain ⟨pre, post, rfl, hbetween⟩ := h
  have hstart : f.rewind.Between recordSize (([] : Places).map place)
      ((pre ++ post).map place) := by
    rw [List.map_append]
    exact hbetween.rewind
  exact findFrom_spec hkey tmp.2 hstart

end Find

/-! ## Updates -/

def Update.record (u : Update) : {r : uuidmap_t // r ≠ zero} := ⟨u.uuidmap, u.nonzero⟩

/-- What an update does with the places. -/
def Places.update (ps : Places) (u : Update) : Places :=
  if u.del then Slots.remove u.record ps else Slots.add u.record ps

section Updates

variable {ps pre post : Places} {f : File} {u : Update}
  {x y : Option {r : uuidmap_t // r ≠ zero}} {r : uuidmap_t}

/-- The record before the offset is overwritten. -/
theorem overwrite_back (hr : r.bytes = place y)
    (h : f.Between recordSize ((pre ++ [x]).map place) (post.map place)) :
    ∃ f', f.back recordSize = some f' ∧ (pre ++ y :: post).In (writeRecord r f').2 := by
  rw [List.map_append] at h
  obtain ⟨f', hback, hat, -⟩ := h.back
  refine ⟨f', hback, pre ++ [y], post, by simp, ?_⟩
  rw [List.map_append, List.map_singleton, ← hr]
  exact hat.write_cons (length_bytes r)

theorem Places.In.del (h : f.Between recordSize ((pre ++ [x]).map place) (post.map place)) :
    (pre ++ none :: post).In (fileDelUuidmap f).2 := by
  obtain ⟨f', hback, hin⟩ := overwrite_back (y := none) rfl h
  unfold fileDelUuidmap
  rw [hback]
  exact hin

theorem Places.In.add {tmp : Memory} (hr : r.bytes = place (some u.record)) (h : ps.In f)
    (hnew : some u.record ∉ ps) :
    Places.In (Slots.add u.record ps) (fileAddUuidmap tmp r f).2 := by
  unfold fileAddUuidmap
  have hzero : zero.bytes = place none := rfl
  rcases fileFindUuidmap_spec tmp hzero h with
    ⟨pre, post, rfl, hpre, hfound, hat⟩ | ⟨hno, hfound, hat⟩
  · obtain ⟨f', hback, hin⟩ := overwrite_back hr hat
    rw [Slots.add_first hnew hpre]
    generalize fileFindUuidmap tmp zero f = found at *
    obtain ⟨b, g⟩ := found
    obtain rfl : b = true := hfound
    simp only [hback]
    exact hin
  · rw [Slots.add_last hnew hno]
    generalize fileFindUuidmap tmp zero f = found at *
    obtain ⟨b, g⟩ := found
    obtain rfl : b = false := hfound
    refine ⟨ps ++ [some u.record], [], by simp, ?_⟩
    rw [List.map_append, List.map_singleton, ← hr]
    exact hat.write_nil (length_bytes r)

/-- The file follows the places. -/
theorem Places.In.update (h : ps.In f) (u : Update) : (ps.update u).In (updateUuidmap f u) := by
  have hkey : u.uuidmap.bytes = place (some u.record) := rfl
  unfold updateUuidmap fileUpdateUuidmap Places.update
  rcases fileFindUuidmap_spec u.tmp hkey h with
    ⟨pre, post, rfl, hpre, hfound, hat⟩ | ⟨hno, hfound, hat⟩
  · generalize fileFindUuidmap u.tmp u.uuidmap f = found at *
    obtain ⟨b, g⟩ := found
    obtain rfl : b = true := hfound
    cases hdel : u.del with
    | true =>
        simp only [if_true]
        rw [Slots.remove_first hpre]
        exact Places.In.del hat
    | false =>
        have hthere : some u.record ∈ pre ++ some u.record :: post := by simp
        simp only [Bool.false_eq_true, if_false]
        rw [Slots.add_of_mem hthere]
        exact ⟨pre ++ [some u.record], post, by simp, hat⟩
  · generalize fileFindUuidmap u.tmp u.uuidmap f = found at *
    obtain ⟨b, g⟩ := found
    obtain rfl : b = false := hfound
    have hin : ps.In g := ⟨ps, [], by simp, hat⟩
    cases hdel : u.del with
    | true =>
        simp only [if_true]
        rw [Slots.remove_of_notMem hno]
        exact hin
    | false =>
        simp only [Bool.false_eq_true, if_false]
        exact Places.In.add hkey hin hno

/-- The places after calls on an empty file. -/
def Places.updated (us : List Update) : Places := us.foldl Places.update []

theorem updated_in (us : List Update) : (Places.updated us).In (updated us) := by
  have hstart : Places.In [] ({} : File) :=
    ⟨[], [], rfl, rfl, rfl, by simp, by simp, by simp⟩
  have hrun : ∀ (us : List Update) (ps : Places) (f : File), ps.In f →
      (us.foldl Places.update ps).In (us.foldl updateUuidmap f) := by
    intro us
    induction us with
    | nil => exact fun ps f h => h
    | cons u us ih => exact fun ps f h => ih _ _ (h.update u)
  exact hrun us [] {} hstart

/-- The records of a set that are not that of a free place. -/
def nonzero (s : Finset uuidmap_t) : Finset {r : uuidmap_t // r ≠ zero} :=
  s.subtype (· ≠ zero)

theorem nonzero_insert {s : Finset uuidmap_t} (r : {r : uuidmap_t // r ≠ zero}) :
    nonzero (insert r.1 s) = insert r (nonzero s) := by
  ext x
  simp [nonzero, Subtype.ext_iff]

theorem nonzero_erase {s : Finset uuidmap_t} (r : {r : uuidmap_t // r ≠ zero}) :
    nonzero (s.erase r.1) = (nonzero s).erase r := by
  ext x
  simp [nonzero, Subtype.ext_iff]

theorem updated_stores (us : List Update) :
    Slots.Stores (Places.updated us) (nonzero (expected us)) := by
  have hrun : ∀ (us : List Update) (ps : Places) (s : Finset uuidmap_t),
      Slots.Stores ps (nonzero s) →
      Slots.Stores (us.foldl Places.update ps) (nonzero (us.foldl expect s)) := by
    intro us
    induction us with
    | nil => exact fun ps s h => h
    | cons u us ih =>
        intro ps s h
        refine ih _ _ ?_
        unfold Places.update expect
        cases u.del with
        | true =>
            have herase := nonzero_erase (s := s) u.record
            simp only [if_true]
            exact herase ▸ h.remove
        | false =>
            have hinsert := nonzero_insert (s := s) u.record
            simp only [Bool.false_eq_true, if_false]
            exact hinsert ▸ h.add
  exact hrun us [] ∅ Slots.Stores.nil

theorem Places.In.bytes (h : ps.In f) : f.bytes = (ps.map place).flatten := by
  obtain ⟨pre, post, rfl, hbetween⟩ := h
  rw [hbetween.bytes, List.map_append, List.flatten_append]

theorem updated_concat (us : List Update) (u : Update) :
    Places.updated (us ++ [u]) = (Places.updated us).update u := by
  unfold Places.updated
  rw [List.foldl_append]
  rfl

/-- The file is a row of places, all records but the free ones are those that were added and not
deleted since, each stored once, it is read and written between two records only, and a new record
goes to the first free place when there is one. -/
theorem updated_refines (us : List Update) :
    ∃ ps : Places, (updated us).bytes = (ps.map place).flatten ∧
      (∀ r : {r : uuidmap_t // r ≠ zero},
        Slots.copies r ps = if r.1 ∈ expected us then 1 else 0) ∧
      (∀ o ∈ (updated us).offsets, recordSize ∣ o) ∧ recordSize ∣ (updated us).pos ∧
      ∀ u : Update, u.del = false → u.uuidmap ∉ expected us → none ∈ ps →
        ∃ pre post, none ∉ pre ∧ ps = pre ++ none :: post ∧ (updated (us ++ [u])).bytes =
          ((pre ++ some u.record :: post).map place).flatten := by
  have hin := updated_in us
  have hstores := updated_stores us
  obtain ⟨pre, post, -, hbetween⟩ := hin
  refine ⟨Places.updated us, (updated_in us).bytes, ?_, hbetween.aligned, hbetween.dvd_pos, ?_⟩
  · intro r
    rw [hstores r]
    simp [nonzero]
  · intro u hdel hnew hfree
    obtain ⟨pre, post, hps, hpre⟩ := List.eq_append_cons_of_mem hfree
    have hno : some u.record ∉ pre ++ none :: post := by
      rw [← hps, hstores.mem_iff]
      intro hmem
      exact hnew (Finset.mem_subtype.mp hmem)
    refine ⟨pre, post, hpre, hps, ?_⟩
    rw [(updated_in (us ++ [u])).bytes, updated_concat, hps]
    unfold Places.update
    simp only [hdel, Bool.false_eq_true, if_false]
    rw [Slots.add_first hno hpre]

end Updates

end DispService.UuidMap
