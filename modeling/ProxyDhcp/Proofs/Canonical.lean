/-
What a layout keeps of a payload is canonical: reading it again changes nothing (`Layout.content_content`). And it is
no more than there was of the payload (`Layout.length_content_le`). An option that was read therefore holds a value of
its kind (`DhcpOption.Canonical`).
-/
import ProxyDhcp.Message.Basic

namespace ProxyDhcp

/-! ## Sub-options of a relay agent -/

namespace Relay

/-- A sub-option whose length byte, written from its payload, counts the payload again. -/
def Sized (item : UInt8 × Bytes) : Prop :=
  width? item.1 (UInt8.ofNat item.2.length) = some item.2.length

theorem width?_self {code length : UInt8} {width : Nat} (h : width? code length = some width) :
    width? code (UInt8.ofNat width) = some width := by
  unfold width? at h ⊢
  split at h
  · next hcode => rw [if_pos hcode]; exact h
  split at h
  · next hfour hcode => rw [if_neg hfour, if_pos hcode]; exact h
  split at h
  · cases h
  · next hfour hten hany =>
    cases h
    rw [if_neg hfour, if_neg hten, UInt8.ofNat_toNat, if_neg hany]

theorem sized_of_mem_items {bytes : Bytes} {item : UInt8 × Bytes} (h : item ∈ items bytes) : Sized item := by
  fun_induction items bytes with
  | case1 => cases h
  | case2 => cases h
  | case3 code length rest width hwidth payload after hsplit ih =>
    rcases List.mem_cons.1 h with rfl | h
    · have hlen : payload.length = width := (Bytes.split?_eq_some_iff.1 hsplit).2
      show width? code (UInt8.ofNat payload.length) = some payload.length
      rw [hlen]
      exact width?_self hwidth
    · exact ih h
  | case4 => cases h

theorem items_write {list : List (UInt8 × Bytes)} (h : ∀ item ∈ list, Sized item) :
    items (write list) = list := by
  induction list with
  | nil => simp [write, items]
  | cons item list ih =>
    obtain ⟨code, payload⟩ := item
    rw [List.forall_mem_cons] at h
    have hwidth : width? code (UInt8.ofNat payload.length) = some payload.length := h.1
    have hsplit : Bytes.split? payload.length (payload ++ write list) = some (payload, write list) :=
      Bytes.split?_append _ rfl
    have hwrite : write ((code, payload) :: list) =
        code :: UInt8.ofNat payload.length :: (payload ++ write list) := by simp [write]
    rw [hwrite, items]
    simp only [hwidth]
    split
    · next hnone => rw [hsplit] at hnone; cases hnone
    · next front after hsome =>
      rw [hsplit] at hsome
      cases hsome
      rw [ih h.2]

/-- One step of `latest`: the sub-option in place of the one of its code. -/
def renew (kept : List (UInt8 × Bytes)) (item : UInt8 × Bytes) : List (UInt8 × Bytes) :=
  kept.filter (·.1 != item.1) ++ [item]

theorem mem_foldl_renew {kept list : List (UInt8 × Bytes)} {item : UInt8 × Bytes}
    (h : item ∈ list.foldl renew kept) : item ∈ kept ∨ item ∈ list := by
  induction list generalizing kept with
  | nil => exact .inl h
  | cons first list ih =>
    rcases ih h with h | h
    · rcases List.mem_append.1 h with h | h
      · exact .inl (List.mem_filter.1 h).1
      · exact .inr (List.mem_cons.2 (.inl (List.mem_singleton.1 h)))
    · exact .inr (List.mem_cons_of_mem _ h)

/-- No two sub-options have one code. -/
def Distinct (list : List (UInt8 × Bytes)) : Prop := list.Pairwise fun p q => p.1 ≠ q.1

theorem distinct_renew {kept : List (UInt8 × Bytes)} (h : Distinct kept) (item : UInt8 × Bytes) :
    Distinct (renew kept item) := by
  refine List.pairwise_append.2 ⟨h.filter _, List.pairwise_singleton _ _, fun p hp q hq => ?_⟩
  rw [List.mem_singleton.1 hq]
  simpa using (List.mem_filter.1 hp).2

theorem distinct_foldl_renew {kept : List (UInt8 × Bytes)} (h : Distinct kept) (list : List (UInt8 × Bytes)) :
    Distinct (list.foldl renew kept) := by
  induction list generalizing kept with
  | nil => exact h
  | cons item list ih => exact ih (distinct_renew h item)

/-- Sub-options of distinct codes are all kept, in their order. -/
theorem foldl_renew_of_distinct {kept list : List (UInt8 × Bytes)} (h : Distinct (kept ++ list)) :
    list.foldl renew kept = kept ++ list := by
  induction list generalizing kept with
  | nil => simp
  | cons item list ih =>
    have hkept : kept.filter (·.1 != item.1) = kept := by
      rw [List.filter_eq_self]
      intro p hp
      simpa using (List.pairwise_append.1 h).2.2 p hp item List.mem_cons_self
    rw [List.foldl_cons, renew, hkept, ih (by simpa using h)]
    simp

theorem latest_eq_foldl (list : List (UInt8 × Bytes)) : latest list = list.foldl renew [] := rfl

/-- Reading what was kept and written keeps all of it. -/
theorem latest_items_write (bytes : Bytes) :
    latest (items (write (latest (items bytes)))) = latest (items bytes) := by
  have hsized : ∀ item ∈ latest (items bytes), Sized item := fun item h => by
    rcases mem_foldl_renew h with h | h
    · cases h
    · exact sized_of_mem_items h
  have hdistinct : Distinct (latest (items bytes)) := distinct_foldl_renew .nil _
  have hkept := foldl_renew_of_distinct (by simpa using hdistinct : Distinct ([] ++ latest (items bytes)))
  rw [items_write hsized, latest_eq_foldl (latest (items bytes)), hkept, List.nil_append]

end Relay

/-! ## All layouts -/

theorem wholeRoutes_wholeRoutes {payload content : Bytes} (h : wholeRoutes payload = .ok content) :
    wholeRoutes content = .ok content := by
  fun_induction wholeRoutes payload generalizing content with
  | case1 => cases h; simp [wholeRoutes]
  | case2 => cases h; simp [wholeRoutes]
  | case3 => cases h
  | case4 bits rest hbits route after hsplit ih =>
    cases hafter : wholeRoutes after with
    | error cause => simp [hafter, bind, Except.bind] at h
    | ok routes =>
      simp only [hafter, bind, Except.bind, pure, Except.pure, Except.ok.injEq] at h
      subst h
      have hagain := Bytes.split?_append routes (Bytes.split?_eq_some_iff.1 hsplit).2
      rw [List.cons_append, wholeRoutes, if_neg hbits]
      split
      · next hnone => rw [hagain] at hnone; cases hnone
      · next front left hsome =>
        rw [hagain] at hsome
        cases hsome
        rw [ih hafter]
        rfl

/-- **Reading a content again changes nothing**, whatever the layout. -/
theorem Layout.content_content {layout : Layout} {payload content : Bytes}
    (h : layout.content payload = .ok content) : layout.content content = .ok content := by
  cases layout with
  | pad | close | bytes => cases h; rfl
  | exact width =>
    simp only [Layout.content] at h ⊢
    split at h
    · next hlen => cases h; rw [if_pos hlen]
    · cases h
  | leading width =>
    simp only [Layout.content] at h ⊢
    split at h
    · next hlen =>
      cases h
      have hwidth : (payload.take width).length = width := by rw [List.length_take]; omega
      rw [if_pos (by omega), List.take_of_length_le (by omega)]
    · cases h
  | records width =>
    simp only [Layout.content] at h ⊢
    split at h
    · next hlen => cases h; rw [if_pos hlen]
    · cases h
  | pairs =>
    cases h
    simp only [Layout.content]
    have hlen : (payload.take (payload.length / 2 * 2)).length = payload.length / 2 * 2 := by
      rw [List.length_take]; omega
    rw [hlen, List.take_of_length_le (by omega)]
  | flag =>
    cases payload with
    | nil => cases h
    | cons b rest =>
      cases h
      by_cases hb : b = 1 <;> simp [Layout.content, hb]
  | autoconfigure =>
    cases payload with
    | nil => cases h
    | cons b rest =>
      simp only [Layout.content] at h
      split at h
      · next hb => cases h; simp [Layout.content, hb]
      · cases h
  | text =>
    simp only [Layout.content] at h ⊢
    cases hcheck : Text.Utf8.check payload with
    | error cause => rw [hcheck] at h; cases h
    | ok => rw [hcheck] at h; cases h; rw [hcheck]; rfl
  | status =>
    cases payload with
    | nil => cases h
    | cons b about =>
      simp only [Layout.content] at h
      cases hcheck : Text.Utf8.check about with
      | error cause => rw [hcheck] at h; cases h
      | ok => rw [hcheck] at h; cases h; simp only [Layout.content, hcheck]; rfl
  | relay =>
    cases h
    simp only [Layout.content, Relay.latest_items_write]
  | routes => exact wholeRoutes_wholeRoutes h
  | rootNames =>
    simp only [Layout.content] at h ⊢
    split at h
    · next hall => cases h; rw [if_pos hall]
    · cases h

/-! ## How much is kept -/

namespace Relay

theorem length_write_nil : (write []).length = 0 := rfl

theorem length_write_cons (item : UInt8 × Bytes) (list : List (UInt8 × Bytes)) :
    (write (item :: list)).length = 2 + item.2.length + (write list).length := by
  simp only [write, List.flatMap_cons, List.length_append, List.length_cons]
  omega

theorem length_write_filter_le (p : UInt8 × Bytes → Bool) (list : List (UInt8 × Bytes)) :
    (write (list.filter p)).length ≤ (write list).length := by
  induction list with
  | nil => exact Nat.le_refl _
  | cons item list ih =>
    rw [List.filter_cons]
    split
    · rw [length_write_cons, length_write_cons]; omega
    · rw [length_write_cons]; omega

theorem length_write_append (front back : List (UInt8 × Bytes)) :
    (write (front ++ back)).length = (write front).length + (write back).length := by
  rw [write, List.flatMap_append, List.length_append]
  rfl

theorem length_write_foldl_renew_le (kept list : List (UInt8 × Bytes)) :
    (write (list.foldl renew kept)).length ≤ (write kept).length + (write list).length := by
  induction list generalizing kept with
  | nil => exact Nat.le_add_right _ _
  | cons item list ih =>
    have hfilter := length_write_filter_le (·.1 != item.1) kept
    have hrenew : (write (renew kept item)).length ≤ (write kept).length + (2 + item.2.length) := by
      rw [renew, length_write_append, length_write_cons, length_write_nil]
      omega
    have hrest := ih (renew kept item)
    rw [List.foldl_cons, length_write_cons]
    omega

theorem length_write_items_le (bytes : Bytes) : (write (items bytes)).length ≤ bytes.length := by
  fun_induction items bytes with
  | case1 => exact Nat.zero_le _
  | case2 => exact Nat.zero_le _
  | case3 code length rest width hwidth payload after hsplit ih =>
    obtain ⟨rfl, hlen⟩ := Bytes.split?_eq_some_iff.1 hsplit
    simp only [length_write_cons, List.length_cons, List.length_append]
    omega
  | case4 => exact Nat.zero_le _

theorem length_write_latest_le (list : List (UInt8 × Bytes)) :
    (write (latest list)).length ≤ (write list).length := by
  have h := length_write_foldl_renew_le [] list
  rwa [length_write_nil, Nat.zero_add, ← latest_eq_foldl] at h

end Relay

theorem length_wholeRoutes_le {payload content : Bytes} (h : wholeRoutes payload = .ok content) :
    content.length ≤ payload.length := by
  fun_induction wholeRoutes payload generalizing content with
  | case1 => cases h; exact Nat.le_refl _
  | case2 => cases h; exact Nat.zero_le _
  | case3 => cases h
  | case4 bits rest hbits route after hsplit ih =>
    cases hafter : wholeRoutes after with
    | error cause => simp [hafter, bind, Except.bind] at h
    | ok routes =>
      simp only [hafter, bind, Except.bind, pure, Except.pure, Except.ok.injEq] at h
      have hroutes := ih hafter
      obtain ⟨rfl, -⟩ := Bytes.split?_eq_some_iff.1 hsplit
      subst h
      simp only [List.length_cons, List.length_append]
      omega

/-- **A layout keeps no more than there is.** -/
theorem Layout.length_content_le {layout : Layout} {payload content : Bytes}
    (h : layout.content payload = .ok content) : content.length ≤ payload.length := by
  cases layout with
  | pad | close => cases h; exact Nat.zero_le _
  | bytes => cases h; exact Nat.le_refl _
  | pairs => cases h; exact List.length_take_le' _ _
  | leading width =>
    simp only [Layout.content] at h
    split at h
    · cases h; exact List.length_take_le' _ _
    · cases h
  | exact width | records width | rootNames =>
    simp only [Layout.content] at h
    split at h
    · cases h; exact Nat.le_refl _
    · cases h
  | flag =>
    cases payload with
    | nil => cases h
    | cons b rest => cases h; simp
  | autoconfigure =>
    cases payload with
    | nil => cases h
    | cons b rest =>
      simp only [Layout.content] at h
      split at h
      · cases h; simp
      · cases h
  | text =>
    simp only [Layout.content] at h
    cases hcheck : Text.Utf8.check payload with
    | error cause => rw [hcheck] at h; cases h
    | ok => rw [hcheck] at h; cases h; exact Nat.le_refl _
  | status =>
    cases payload with
    | nil => cases h
    | cons b about =>
      simp only [Layout.content] at h
      cases hcheck : Text.Utf8.check about with
      | error cause => rw [hcheck] at h; cases h
      | ok => rw [hcheck] at h; cases h; exact Nat.le_refl _
  | relay =>
    cases h
    exact Nat.le_trans (Relay.length_write_latest_le _) (Relay.length_write_items_le payload)
  | routes => exact length_wholeRoutes_le h

/-! ## Values of a kind -/

/-- The content is a value of the option's kind: its layout reads it unchanged. -/
def DhcpOption.Canonical (option : DhcpOption) : Prop :=
  option.code.layout.content option.content = .ok option.content

/-- Every option holds a value of its kind. -/
def OptionTable.Canonical (table : OptionTable) : Prop :=
  ∀ code option, table.get? code = some option → option.Canonical

theorem DhcpOption.ofContent_canonical {code : UInt8} {payload : Bytes} {option : DhcpOption}
    (h : ofContent code payload = .ok option) : option.Canonical := by
  unfold ofContent at h
  cases hcontent : (OptionCode.ofByte (keptCode code)).layout.content payload with
  | error cause => simp [hcontent, bind, Except.bind] at h
  | ok content =>
    simp only [hcontent, bind, Except.bind, pure, Except.pure, Except.ok.injEq] at h
    subst h
    exact Layout.content_content hcontent

namespace OptionTable

theorem empty_proper : empty.Proper := fun _ _ h => by simp at h

theorem empty_canonical : empty.Canonical := fun _ _ h => by simp at h

theorem add_proper {table : OptionTable} (h : table.Proper) (option : DhcpOption) :
    (table.add option).Proper := by
  intro code other hget
  rw [get?_add] at hget
  split at hget
  · next hcode => cases hget; exact hcode.symm
  · exact h _ _ hget

theorem add_canonical {table : OptionTable} (h : table.Canonical) {option : DhcpOption}
    (ho : option.Canonical) : (table.add option).Canonical := by
  intro code other hget
  rw [get?_add] at hget
  split at hget
  · cases hget; exact ho
  · exact h _ _ hget

end OptionTable

end ProxyDhcp
