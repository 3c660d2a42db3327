/-
The options of a message: at most one under each code, in the order of the codes. Looking up after an
insertion or a removal is settled by four lemmas (`get?_insert_self`, `get?_insert_other`,
`get?_erase_self`, `get?_erase_other`), and two tables with the same look-ups are equal (`ext`): the
order is part of the type, so it hides no history.

The code of a place and the code of the option in it are told apart, since an option may be put under
another code than its own.
-/
import ProxyDhcp.DhcpOption.Wire

namespace ProxyDhcp

/-- Places in ascending order, each with its option. -/
structure OptionTable where
  entries : List (OptionCode × DhcpOption)
  ascending : entries.Pairwise fun p q => p.1.rank < q.1.rank
  deriving DecidableEq

namespace OptionTable

/-! ## Entries -/

def lookup (code : OptionCode) : List (OptionCode × DhcpOption) → Option DhcpOption
  | [] => none
  | (place, option) :: rest => if place = code then some option else lookup code rest

/-- Puts an option in its place, over the one that is there. -/
def place (code : OptionCode) (option : DhcpOption) :
    List (OptionCode × DhcpOption) → List (OptionCode × DhcpOption)
  | [] => [(code, option)]
  | (here, there) :: rest =>
    if code = here then (code, option) :: rest
    else if code.rank < here.rank then (code, option) :: (here, there) :: rest
    else (here, there) :: place code option rest

theorem mem_place {code : OptionCode} {option : DhcpOption} {entries : List (OptionCode × DhcpOption)}
    {p : OptionCode × DhcpOption} (h : p ∈ place code option entries) : p = (code, option) ∨ p ∈ entries := by
  induction entries with
  | nil => simpa [place] using h
  | cons e rest ih =>
    obtain ⟨here, there⟩ := e
    rw [place] at h
    split at h
    · rcases List.mem_cons.1 h with h | h
      · exact .inl h
      · exact .inr (List.mem_cons_of_mem _ h)
    split at h
    · rcases List.mem_cons.1 h with h | h
      · exact .inl h
      · exact .inr h
    · rcases List.mem_cons.1 h with h | h
      · exact .inr (h ▸ List.mem_cons_self)
      · exact (ih h).imp id (List.mem_cons_of_mem _)

theorem place_ascending (code : OptionCode) (option : DhcpOption) {entries : List (OptionCode × DhcpOption)}
    (h : entries.Pairwise fun p q => p.1.rank < q.1.rank) :
    (place code option entries).Pairwise fun p q => p.1.rank < q.1.rank := by
  induction entries with
  | nil => simp [place]
  | cons e rest ih =>
    obtain ⟨here, there⟩ := e
    obtain ⟨hhere, hrest⟩ := List.pairwise_cons.1 h
    rw [place]
    split
    · next heq =>
      subst heq
      exact List.pairwise_cons.2 ⟨hhere, hrest⟩
    split
    · next hlt =>
      refine List.pairwise_cons.2 ⟨fun q hq => ?_, h⟩
      rcases List.mem_cons.1 hq with rfl | hq
      · exact hlt
      · exact Nat.lt_trans hlt (hhere q hq)
    · next hne hlt =>
      refine List.pairwise_cons.2 ⟨fun q hq => ?_, ih hrest⟩
      rcases mem_place hq with rfl | hq
      · have : here.rank ≠ code.rank := fun he => hne (OptionCode.rank_injective he).symm
        show here.rank < code.rank
        omega
      · exact hhere q hq

theorem lookup_place_self (code : OptionCode) (option : DhcpOption) (entries : List (OptionCode × DhcpOption)) :
    lookup code (place code option entries) = some option := by
  induction entries with
  | nil => simp [place, lookup]
  | cons e rest ih =>
    obtain ⟨here, there⟩ := e
    rw [place]
    split
    · simp [lookup]
    split
    · simp [lookup]
    · next hne _ => rw [lookup, if_neg fun he => hne he.symm, ih]

theorem lookup_place_other {code other : OptionCode} (option : DhcpOption)
    (entries : List (OptionCode × DhcpOption)) (hne : other ≠ code) :
    lookup other (place code option entries) = lookup other entries := by
  induction entries with
  | nil => simp [place, lookup, hne.symm]
  | cons e rest ih =>
    obtain ⟨here, there⟩ := e
    rw [place]
    split
    · next heq => subst heq; simp [lookup, hne.symm]
    split
    · rw [lookup, if_neg hne.symm]
    · rw [lookup, lookup, ih]

theorem lookup_filter_other {code other : OptionCode} (entries : List (OptionCode × DhcpOption))
    (hne : other ≠ code) : lookup other (entries.filter (·.1 != code)) = lookup other entries := by
  induction entries with
  | nil => rfl
  | cons e rest ih =>
    obtain ⟨here, there⟩ := e
    by_cases hc : here = code
    · subst hc
      simp [lookup, hne.symm, ih]
    · simp [lookup, hc, ih]

theorem lookup_filter_self (code : OptionCode) (entries : List (OptionCode × DhcpOption)) :
    lookup code (entries.filter (·.1 != code)) = none := by
  induction entries with
  | nil => rfl
  | cons e rest ih =>
    obtain ⟨here, there⟩ := e
    by_cases hc : here = code
    · subst hc
      simp [ih]
    · simp [lookup, hc, ih]

theorem mem_of_lookup {code : OptionCode} {option : DhcpOption} {entries : List (OptionCode × DhcpOption)}
    (h : lookup code entries = some option) : (code, option) ∈ entries := by
  induction entries with
  | nil => cases h
  | cons e rest ih =>
    obtain ⟨here, there⟩ := e
    rw [lookup] at h
    split at h
    · next heq =>
      cases h
      subst heq
      exact List.mem_cons_self
    · exact List.mem_cons_of_mem _ (ih h)

theorem lookup_of_mem {code : OptionCode} {option : DhcpOption} {entries : List (OptionCode × DhcpOption)}
    (hasc : entries.Pairwise fun p q => p.1.rank < q.1.rank) (h : (code, option) ∈ entries) :
    lookup code entries = some option := by
  induction entries with
  | nil => cases h
  | cons e rest ih =>
    obtain ⟨here, there⟩ := e
    obtain ⟨hhere, hrest⟩ := List.pairwise_cons.1 hasc
    rcases List.mem_cons.1 h with h | h
    · cases h
      simp [lookup]
    · have hlt := hhere _ h
      have hne : here ≠ code := by
        rintro rfl
        exact Nat.lt_irrefl _ hlt
      rw [lookup, if_neg hne]
      exact ih hrest h

theorem entries_eq_of_lookup_eq {a b : List (OptionCode × DhcpOption)}
    (ha : a.Pairwise fun p q => p.1.rank < q.1.rank) (hb : b.Pairwise fun p q => p.1.rank < q.1.rank)
    (h : ∀ code, lookup code a = lookup code b) : a = b := by
  induction a generalizing b with
  | nil =>
    cases b with
    | nil => rfl
    | cons q b => have := h q.1; simp [lookup] at this
  | cons p a ih =>
    obtain ⟨c, o⟩ := p
    cases b with
    | nil => have := h c; simp [lookup] at this
    | cons q b =>
      obtain ⟨d, u⟩ := q
      obtain ⟨hc, ha'⟩ := List.pairwise_cons.1 ha
      obtain ⟨hd, hb'⟩ := List.pairwise_cons.1 hb
      have hco : (c, o) ∈ (d, u) :: b := mem_of_lookup (by rw [← h c]; simp [lookup])
      have hdu : (d, u) ∈ (c, o) :: a := mem_of_lookup (by rw [h d]; simp [lookup])
      have heq : (c, o) = (d, u) := by
        rcases List.mem_cons.1 hco with h1 | h1
        · exact h1
        rcases List.mem_cons.1 hdu with h2 | h2
        · exact h2.symm
        have h3 : d.rank < c.rank := hd _ h1
        have h4 : c.rank < d.rank := hc _ h2
        omega
      cases heq
      congr 1
      refine ih ha' hb' fun code => ?_
      by_cases hcode : c = code
      · subst hcode
        have hnone : ∀ {l : List (OptionCode × DhcpOption)}, (∀ p ∈ l, c.rank < p.1.rank) → lookup c l = none := by
          intro l hl
          cases hlk : lookup c l with
          | none => rfl
          | some o' => exact absurd (hl _ (mem_of_lookup hlk)) (Nat.lt_irrefl _)
        rw [hnone hc, hnone hd]
      · have := h code
        rw [lookup, lookup, if_neg hcode, if_neg hcode] at this
        exact this

/-! ## Tables -/

def empty : OptionTable := ⟨[], .nil⟩

def get? (table : OptionTable) (code : OptionCode) : Option DhcpOption := lookup code table.entries

def contains (table : OptionTable) (code : OptionCode) : Bool := (table.get? code).isSome

/-- Puts an option under a code, in place of the one that is there. -/
def insert (table : OptionTable) (code : OptionCode) (option : DhcpOption) : OptionTable :=
  ⟨place code option table.entries, place_ascending code option table.ascending⟩

def erase (table : OptionTable) (code : OptionCode) : OptionTable :=
  ⟨table.entries.filter (·.1 != code), table.ascending.filter _⟩

/-- Puts an option under its own code. -/
def add (table : OptionTable) (option : DhcpOption) : OptionTable := table.insert option.code option

@[simp] theorem get?_empty (code : OptionCode) : empty.get? code = none := rfl

@[simp] theorem get?_insert_self (table : OptionTable) (code : OptionCode) (option : DhcpOption) :
    (table.insert code option).get? code = some option :=
  lookup_place_self code option table.entries

theorem get?_insert_other (table : OptionTable) {code other : OptionCode} (option : DhcpOption)
    (hne : other ≠ code) : (table.insert code option).get? other = table.get? other :=
  lookup_place_other option table.entries hne

@[simp] theorem get?_erase_self (table : OptionTable) (code : OptionCode) :
    (table.erase code).get? code = none :=
  lookup_filter_self code table.entries

theorem get?_erase_other (table : OptionTable) {code other : OptionCode} (hne : other ≠ code) :
    (table.erase code).get? other = table.get? other :=
  lookup_filter_other table.entries hne

theorem get?_add (table : OptionTable) (option : DhcpOption) (code : OptionCode) :
    (table.add option).get? code = if code = option.code then some option else table.get? code := by
  rw [add]
  split
  · next h => subst h; exact get?_insert_self ..
  · next h => exact get?_insert_other _ _ h

/-- **A table is its look-ups.** -/
@[ext] theorem ext {a b : OptionTable} (h : ∀ code, a.get? code = b.get? code) : a = b := by
  obtain ⟨as, ha⟩ := a
  obtain ⟨bs, hb⟩ := b
  have : as = bs := entries_eq_of_lookup_eq ha hb h
  subst this
  rfl

/-- Every option lies under its own code. -/
def Proper (table : OptionTable) : Prop :=
  ∀ code option, table.get? code = some option → option.code = code

end OptionTable

end ProxyDhcp
