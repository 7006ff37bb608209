import Mathlib.Logic.ExistsUnique
import MemberBinding.Proofs.Lists.FirstOccurrences
import MemberBinding.Proofs.Snapshot.Designation

/-!
# The buckets of a name index

However far the pass over the members has come, there is one bucket for each kind and name met so
far, and it holds what a scan of these members finds. Main statement:
`NameIndex.ofSnapshot_files_once`.
-/

namespace MemberBinding.NameIndex

/-- What a member is filed under. -/
def keyOf (m : Member) : Key := (m.kind, m.name)

/-! ## One addition -/

theorem keys_put (key : Key) (position : Nat) (buckets : List (Key × List Nat)) :
    (put key position buckets).map (·.1) = appendNew id (buckets.map (·.1)) key := by
  induction buckets with
  | nil => rfl
  | cons b rest ih =>
    obtain ⟨k, ids⟩ := b
    by_cases h : k = key
    · simp [put, appendNew, h]
    · -- The first bucket stays, and the key is new to all of them if it is new to the rest.
      simp only [put, if_neg h, List.map_cons, ih, appendNew, List.map_id, id_eq, List.mem_cons,
        Ne.symm h, false_or]
      split <;> rfl

theorem positions_put_perm (key : Key) (position : Nat) (buckets : List (Key × List Nat)) :
    ((put key position buckets).flatMap (·.2)).Perm (buckets.flatMap (·.2) ++ [position]) := by
  induction buckets with
  | nil => exact List.Perm.refl _
  | cons b rest ih =>
    obtain ⟨k, ids⟩ := b
    by_cases h : k = key
    · simp only [put, if_pos h, List.flatMap_cons, List.append_assoc]
      exact List.perm_append_comm.append_left ids
    · simp only [put, if_neg h, List.flatMap_cons, List.append_assoc]
      exact ih.append_left ids

/-! ## The pass -/

theorem keys_foldl_add (entries : List (Member × Nat)) (index : NameIndex) :
    (entries.foldl add index).buckets.map (·.1) =
      (entries.map fun e => keyOf e.1).foldl (appendNew id) (index.buckets.map (·.1)) := by
  induction entries generalizing index with
  | nil => rfl
  | cons e entries ih =>
    have hstep : (index.add e).buckets.map (·.1) =
        appendNew id (index.buckets.map (·.1)) (keyOf e.1) := keys_put _ _ _
    rw [List.foldl_cons, ih, hstep, List.map_cons, List.foldl_cons]

theorem keys_foldl_add_nil (entries : List (Member × Nat)) :
    (entries.foldl add {}).buckets.map (·.1) = (entries.map fun e => keyOf e.1).eraseDups := by
  rw [keys_foldl_add]
  exact foldl_appendNew_id _

theorem nodup_keys_foldl_add_nil (entries : List (Member × Nat)) :
    ((entries.foldl add {}).buckets.map (·.1)).Nodup := by
  have hnone : (([] : List Key).map id).Nodup := List.nodup_nil
  have hkeys := nodup_foldl_appendNew id hnone (entries.map fun e => keyOf e.1)
  rw [List.map_id] at hkeys
  rw [keys_foldl_add]
  exact hkeys

theorem positions_foldl_add_perm (entries : List (Member × Nat)) (index : NameIndex) :
    ((entries.foldl add index).buckets.flatMap (·.2)).Perm
      (index.buckets.flatMap (·.2) ++ entries.map (·.2)) := by
  induction entries generalizing index with
  | nil => simp
  | cons e entries ih =>
    have hstep : ((index.add e).buckets.flatMap (·.2)).Perm
        (index.buckets.flatMap (·.2) ++ [e.2]) := positions_put_perm _ _ _
    have happend := hstep.append_right (entries.map (·.2))
    rw [List.append_assoc, List.singleton_append] at happend
    exact (ih (index.add e)).trans happend

/-! ## Buckets and look-ups -/

theorem lookup_of_mem {buckets : List (Key × List Nat)} {bucket : Key × List Nat}
    (hkeys : (buckets.map (·.1)).Nodup) (h : bucket ∈ buckets) :
    buckets.lookup bucket.1 = some bucket.2 := by
  obtain ⟨before, after, rfl⟩ := List.append_of_mem h
  rw [List.map_append, List.map_cons, List.nodup_append] at hkeys
  refine List.lookup_eq_some_iff.2 ⟨before, after, rfl, ?_⟩
  -- A bucket before this one has another key, so the look-up goes past it.
  intro other hother
  exact bne_iff_ne.2 (hkeys.2.2 _ (List.mem_map_of_mem hother) _ List.mem_cons_self).symm

/-- Buckets with different keys are what is looked up under these keys. -/
theorem buckets_eq_map_lookup {index : NameIndex} (hkeys : (index.buckets.map (·.1)).Nodup) :
    index.buckets =
      (index.buckets.map (·.1)).map fun key => (key, index.lookup key.1 key.2) := by
  have hbucket : ∀ bucket ∈ index.buckets,
      bucket = (bucket.1, index.lookup bucket.1.1 bucket.1.2) := by
    intro bucket hmem
    have hfound : index.lookup bucket.1.1 bucket.1.2 = bucket.2 :=
      congrArg (·.getD []) (lookup_of_mem hkeys hmem)
    rw [hfound]
  rw [List.map_map]
  exact (List.map_id _).symm.trans (List.map_congr_left hbucket)

/-- After any entries there is a bucket for each of their keys, in the order in which the keys were
met, with the positions of all entries under the key. -/
theorem buckets_foldl_add_nil (entries : List (Member × Nat)) :
    (entries.foldl add {}).buckets = (entries.map fun e => keyOf e.1).eraseDups.map fun key =>
      (key, (entries.filter fun e => e.1.kind == key.1 && e.1.name == key.2).map (·.2)) := by
  rw [buckets_eq_map_lookup (nodup_keys_foldl_add_nil entries), keys_foldl_add_nil]
  refine List.map_congr_left fun key _ => ?_
  rw [lookup_foldl_add]
  rfl

/-! ## The members of a snapshot -/

variable {s : Snapshot}

theorem buckets_ofSnapshot (s : Snapshot) :
    (ofSnapshot s).buckets =
      (s.members.map keyOf).eraseDups.map fun key => (key, s.named key.1 key.2) := by
  have hkeys : (s.members.zipIdx.map fun e => keyOf e.1) = s.members.map keyOf := by
    rw [← Function.comp_def keyOf, ← List.map_map, List.zipIdx_map_fst]
  rw [ofSnapshot, buckets_foldl_add_nil, hkeys]
  rfl

theorem positions_ofSnapshot_perm (s : Snapshot) :
    ((ofSnapshot s).buckets.flatMap (·.2)).Perm (List.range s.members.length) := by
  have hperm := positions_foldl_add_perm s.members.zipIdx {}
  rw [List.zipIdx_map_snd, ← List.range_eq_range'] at hperm
  exact hperm

/-- The bucket of a member. -/
theorem bucket_mem_buckets {id : Nat} (hid : id < s.members.length) :
    (keyOf (s.member id), s.named (s.member id).kind (s.member id).name) ∈
      (ofSnapshot s).buckets := by
  have hkey : keyOf (s.member id) ∈ (s.members.map keyOf).eraseDups :=
    List.mem_eraseDups.2 (List.mem_map_of_mem (s.member_mem hid))
  rw [buckets_ofSnapshot]
  exact List.mem_map_of_mem hkey

theorem eq_bucket_of_mem {bucket : Key × List Nat} {id : Nat}
    (hbucket : bucket ∈ (ofSnapshot s).buckets) (hid : id ∈ bucket.2) :
    bucket = (keyOf (s.member id), s.named (s.member id).kind (s.member id).name) := by
  rw [buckets_ofSnapshot, List.mem_map] at hbucket
  obtain ⟨key, -, rfl⟩ := hbucket
  obtain ⟨-, hkind, hname⟩ := Snapshot.mem_named_iff_member.1 hid
  have hkey : keyOf (s.member id) = key := Prod.ext hkind hname
  rw [hkey, hkind, hname]

/-- Looking up a kind and name gives what a scan of the members does, their positions in declaration
order. There is one bucket for each kind and name that occurs, all buckets together hold every
position once, and so each member is in one of them only. -/
theorem ofSnapshot_files_once (s : Snapshot) :
    (∀ kind name,
      (ofSnapshot s).lookup kind name = s.named kind name ∧
      ((ofSnapshot s).lookup kind name).Pairwise (· < ·) ∧
      ∀ id, id ∈ (ofSnapshot s).lookup kind name ↔
        id < s.members.length ∧ (s.member id).kind = kind ∧ (s.member id).name = name) ∧
    (ofSnapshot s).buckets =
      (s.members.map keyOf).eraseDups.map (fun key => (key, s.named key.1 key.2)) ∧
    ((ofSnapshot s).buckets.map (·.1)).Nodup ∧
    ((ofSnapshot s).buckets.flatMap (·.2)).Perm (List.range s.members.length) ∧
    ∀ id < s.members.length, ∃! bucket, bucket ∈ (ofSnapshot s).buckets ∧ id ∈ bucket.2 := by
  refine ⟨?lookup, buckets_ofSnapshot s, nodup_keys_foldl_add_nil _, positions_ofSnapshot_perm s,
    ?once⟩
  case lookup =>
    intro kind name
    rw [lookup_ofSnapshot]
    exact ⟨rfl, s.pairwise_lt_named kind name, fun id => Snapshot.mem_named_iff_member⟩
  case once =>
    intro id hid
    have hmem : id ∈ s.named (s.member id).kind (s.member id).name :=
      Snapshot.mem_named_iff_member.2 ⟨hid, rfl, rfl⟩
    refine ⟨_, ⟨bucket_mem_buckets hid, hmem⟩, ?_⟩
    intro bucket hbucket
    exact eq_bucket_of_mem hbucket.1 hbucket.2

/-- One name for members of each kind, one of them overloaded. -/
def overloadedSave : Snapshot where
  name := "Document"
  members := [
    .method "Save" "System.Void",
    .property "Save" "System.Windows.Input.ICommand",
    (Member.method "Save" "System.Void").withParameter "System.Object",
    .field "Save" "System.Windows.Input.ICommand",
    .method "Load" "System.Void"]

theorem ofSnapshot_files_once_overloadedSave :
    2 < overloadedSave.members.length ∧
    (ofSnapshot overloadedSave).lookup .method "Save" = [0, 2] ∧
    (ofSnapshot overloadedSave).buckets =
      [((.method, "Save"), [0, 2]), ((.property, "Save"), [1]), ((.field, "Save"), [3]),
        ((.method, "Load"), [4])] ∧
    ∃! bucket, bucket ∈ (ofSnapshot overloadedSave).buckets ∧ 2 ∈ bucket.2 := by
  obtain ⟨hlookup, hbuckets, -, -, honce⟩ := ofSnapshot_files_once overloadedSave
  have hlt : 2 < overloadedSave.members.length := by decide
  refine ⟨hlt, (hlookup .method "Save").1.trans rfl, hbuckets.trans ?_, honce 2 hlt⟩
  decide

end MemberBinding.NameIndex
