import MemberBinding.Snapshot

/-!
# Members by kind and name

One bucket per kind and name, built in one pass. Members that share both, such as overloads, stay
in declaration order.
-/

namespace MemberBinding

structure NameIndex where
  buckets : List ((MemberKind × String) × List Nat) := []
  deriving Repr

namespace NameIndex

abbrev Key := MemberKind × String

def put (key : Key) (id : Nat) : List (Key × List Nat) → List (Key × List Nat)
  | [] => [(key, [id])]
  | (k, ids) :: rest => if k = key then (k, ids ++ [id]) :: rest else (k, ids) :: put key id rest

def add (index : NameIndex) (entry : Member × Nat) : NameIndex :=
  ⟨put (entry.1.kind, entry.1.name) entry.2 index.buckets⟩

def ofSnapshot (s : Snapshot) : NameIndex := s.members.zipIdx.foldl add {}

def lookup (index : NameIndex) (kind : MemberKind) (name : String) : List Nat :=
  (index.buckets.lookup (kind, name)).getD []

theorem lookup_put (key k : Key) (id : Nat) (buckets : List (Key × List Nat)) :
    ((put key id buckets).lookup k).getD [] =
      (buckets.lookup k).getD [] ++ if k = key then [id] else [] := by
  induction buckets with
  | nil =>
    by_cases h : k = key
    · simp [put, h]
    · simp [put, List.lookup_cons, h, beq_false_of_ne h]
  | cons b rest ih =>
    obtain ⟨k', ids⟩ := b
    by_cases h : k' = key <;> by_cases hk : k = k'
    · simp [put, ← h, hk]
    · simp [put, List.lookup_cons, ← h, hk, beq_false_of_ne hk]
    · simp [put, h, hk]
    · simp [put, List.lookup_cons, h, beq_false_of_ne hk, ih]

theorem lookup_add (index : NameIndex) (m : Member) (id : Nat) (kind : MemberKind)
    (name : String) :
    (index.add (m, id)).lookup kind name =
      index.lookup kind name ++ if m.kind = kind ∧ m.name = name then [id] else [] := by
  simp [add, lookup, lookup_put, eq_comm]

theorem lookup_foldl_add (entries : List (Member × Nat)) (index : NameIndex) (kind : MemberKind)
    (name : String) :
    (entries.foldl add index).lookup kind name = index.lookup kind name ++
      (entries.filter fun e => e.1.kind == kind && e.1.name == name).map (·.2) := by
  induction entries generalizing index with
  | nil => simp
  | cons e entries ih =>
    obtain ⟨m, id⟩ := e
    rw [List.foldl_cons, ih, lookup_add]
    by_cases h : m.kind = kind ∧ m.name = name
    · simp [h]
    · have hb : (m.kind == kind && m.name == name) = false := by simpa using h
      simp [h, hb]

theorem lookup_ofSnapshot (s : Snapshot) (kind : MemberKind) (name : String) :
    (ofSnapshot s).lookup kind name = s.named kind name := by
  simpa [ofSnapshot, Snapshot.named, lookup] using lookup_foldl_add s.members.zipIdx {} kind name

end NameIndex
end MemberBinding
