import BorderProxy.Proofs.Proxy.Anchored
import BorderProxy.Proofs.Proxy.Recognised

/-! The own entries that are taken off a Route list: the one at its head, and then the one at the end of what is
left. All others stay in their order. Each end is looked at once, so an own entry is left at an end where two of
them stood, and a request with two of them at the head of a longer list is sent back to the proxy. -/

namespace BorderProxy.OwnAddresses

variable (own : OwnAddresses) (known : KnownHosts)

/-- An entry, if it is an own one. -/
def ownEntry (value? : Option Text) : List Text := (value?.filter (own.ownsRoute known)).toList

/-- A Route list without the own entry at its head. -/
def stripFirst (routes : List Text) : List Text :=
  match routes with
  | first :: rest => if own.ownsRoute known first then rest else routes
  | [] => []

variable {own known}

theorem ownsRoute_iff {value : Text} : own.ownsRoute known value = true ↔
    ∃ uri, NameAddr.uri? value = some uri ∧ own.ownsUri known uri = true := by
  unfold ownsRoute
  cases NameAddr.uri? value with
  | none => simp
  | some uri => simp

theorem ownEntry_some (value : Text) :
    own.ownEntry known (some value) = if own.ownsRoute known value = true then [value] else [] := by
  by_cases h : own.ownsRoute known value = true
  · simp [ownEntry, Option.filter, h]
  · simp [ownEntry, Option.filter, h]

theorem length_ownEntry_le (value? : Option Text) : (own.ownEntry known value?).length ≤ 1 := by
  cases value? with
  | none => exact Nat.zero_le 1
  | some value =>
      rw [ownEntry_some]
      split
      · exact le_rfl
      · exact Nat.zero_le 1

theorem owns_of_mem_ownEntry {value? : Option Text} {value : Text} (h : value ∈ own.ownEntry known value?) :
    own.ownsRoute known value = true := by
  rw [ownEntry, Option.mem_toList] at h
  exact (Option.filter_eq_some_iff.mp h).2

/-! One end at a time. -/

theorem stripFirst_cons (first : Text) (rest : List Text) :
    own.stripFirst known (first :: rest) = if own.ownsRoute known first then rest else first :: rest :=
  rfl

theorem stripEnds_eq (routes : List Text) :
    own.stripEnds known routes = own.stripLast known (own.stripFirst known routes) := by
  cases routes with
  | nil => rfl
  | cons first rest => rfl

theorem ownEntry_append_stripFirst (own : OwnAddresses) (known : KnownHosts) (routes : List Text) :
    own.ownEntry known routes.head? ++ own.stripFirst known routes = routes := by
  cases routes with
  | nil => rfl
  | cons first rest =>
      rw [List.head?_cons, ownEntry_some, stripFirst_cons]
      split
      · rfl
      · rfl

theorem stripLast_concat (routes : List Text) (last : Text) : own.stripLast known (routes ++ [last]) =
    if own.ownsRoute known last then routes else routes ++ [last] := by
  simp [stripLast]

theorem stripLast_append_ownEntry (own : OwnAddresses) (known : KnownHosts) (routes : List Text) :
    own.stripLast known routes ++ own.ownEntry known routes.getLast? = routes := by
  obtain rfl | ⟨front, last, rfl⟩ := List.eq_nil_or_concat' routes
  · rfl
  · rw [stripLast_concat, List.getLast?_concat, ownEntry_some]
    split
    · rfl
    · exact List.append_nil _

/-- An own entry is left at the head where another one stood in front of it. -/
theorem stripFirst_eq_cons_iff {routes rest : List Text} {value : Text}
    (howns : own.ownsRoute known value = true) : own.stripFirst known routes = value :: rest ↔
      ∃ first, own.ownsRoute known first = true ∧ routes = first :: value :: rest := by
  constructor
  · intro h
    cases routes with
    | nil => cases h
    | cons first left =>
        rw [stripFirst_cons] at h
        split at h
        · rename_i hfirst
          exact ⟨first, hfirst, by rw [h]⟩
        · rename_i hfirst
          obtain ⟨rfl, -⟩ := List.cons.inj h
          exact absurd howns hfirst
  · rintro ⟨first, hfirst, rfl⟩
    rw [stripFirst_cons, if_pos hfirst]

/-- An own entry is left at the end where another one stood behind it. -/
theorem stripLast_eq_concat_iff {routes front : List Text} {value : Text}
    (howns : own.ownsRoute known value = true) : own.stripLast known routes = front ++ [value] ↔
      ∃ last, own.ownsRoute known last = true ∧ routes = front ++ [value, last] := by
  constructor
  · intro h
    obtain rfl | ⟨left, last, rfl⟩ := List.eq_nil_or_concat' routes
    · exact absurd h (List.append_ne_nil_of_right_ne_nil front (List.cons_ne_nil value [])).symm
    · rw [stripLast_concat] at h
      split at h
      · rename_i hlast
        exact ⟨last, hlast, by rw [h, List.append_assoc]; rfl⟩
      · rename_i hlast
        obtain ⟨-, heq⟩ := List.append_inj' h rfl
        obtain ⟨rfl, -⟩ := List.cons.inj heq
        exact absurd howns hlast
  · rintro ⟨last, hlast, rfl⟩
    have hbehind : front ++ [value, last] = front ++ [value] ++ [last] :=
      (List.append_assoc front [value] [last]).symm
    rw [hbehind, stripLast_concat, if_pos hlast]

/-! Both ends. -/

theorem ownEntry_append_stripEnds (own : OwnAddresses) (known : KnownHosts) (routes : List Text) :
    own.ownEntry known routes.head? ++ own.stripEnds known routes ++
      own.ownEntry known (own.stripFirst known routes).getLast? = routes := by
  rw [stripEnds_eq, List.append_assoc, stripLast_append_ownEntry, ownEntry_append_stripFirst]

/-- Two own entries at the head of a longer list leave one there. Of two that are the whole list, the second one is
the entry at the end. -/
theorem owns_head_stripEnds_iff {routes : List Text} :
    (∃ value rest, own.stripEnds known routes = value :: rest ∧ own.ownsRoute known value = true) ↔
      ∃ first second third rest, routes = first :: second :: third :: rest ∧
        own.ownsRoute known first = true ∧ own.ownsRoute known second = true := by
  constructor
  · rintro ⟨value, rest, h, howns⟩
    rw [stripEnds_eq] at h
    have hleft := stripLast_append_ownEntry own known (own.stripFirst known routes)
    rw [h, List.cons_append] at hleft
    obtain ⟨first, hfirst, hroutes⟩ := (stripFirst_eq_cons_iff howns).mp hleft.symm
    cases hbehind : rest ++ own.ownEntry known (own.stripFirst known routes).getLast? with
    | nil =>
        rw [hbehind] at hleft
        rw [← hleft, ← List.nil_append [value], stripLast_concat, if_pos howns] at h
        cases h
    | cons third others =>
        rw [hbehind] at hroutes
        exact ⟨first, value, third, others, hroutes, hfirst, howns⟩
  · rintro ⟨first, second, third, rest, rfl, hfirst, hsecond⟩
    obtain ⟨front, last, hlast⟩ := List.eq_nil_or_concat' (third :: rest) |>.resolve_left (List.cons_ne_nil _ _)
    rw [stripEnds_eq, stripFirst_cons, if_pos hfirst, hlast, ← List.cons_append, stripLast_concat]
    split
    · exact ⟨second, front, rfl, hsecond⟩
    · exact ⟨second, front ++ [last], rfl, hsecond⟩

theorem owns_last_stripEnds_iff {routes : List Text} :
    (∃ front value, own.stripEnds known routes = front ++ [value] ∧ own.ownsRoute known value = true) ↔
      ∃ front third second last, routes = front ++ [third, second, last] ∧
        own.ownsRoute known second = true ∧ own.ownsRoute known last = true := by
  constructor
  · rintro ⟨front, value, h, howns⟩
    rw [stripEnds_eq] at h
    obtain ⟨last, hlast, hleft⟩ := (stripLast_eq_concat_iff howns).mp h
    have hwhole := ownEntry_append_stripFirst own known routes
    rw [hleft, ← List.append_assoc] at hwhole
    obtain hnone | ⟨before, third, hbefore⟩ :=
      List.eq_nil_or_concat' (own.ownEntry known routes.head? ++ front)
    · -- The first of two own entries is the head of the list.
      rw [hnone, List.nil_append] at hwhole
      rw [← hwhole, stripFirst_cons, if_pos howns] at hleft
      have hlength := congrArg List.length hleft
      simp at hlength
    · rw [hbefore, List.append_assoc] at hwhole
      exact ⟨before, third, value, last, hwhole.symm, howns, hlast⟩
  · rintro ⟨front, third, second, last, rfl, hsecond, hlast⟩
    obtain ⟨before, hleft⟩ : ∃ before,
        own.stripFirst known (front ++ [third, second, last]) = before ++ [second, last] := by
      cases front with
      | nil =>
          rw [List.nil_append, stripFirst_cons]
          split
          · exact ⟨[], rfl⟩
          · exact ⟨[third], rfl⟩
      | cons first rest =>
          rw [List.cons_append, stripFirst_cons]
          split
          · exact ⟨rest ++ [third], by simp⟩
          · exact ⟨first :: rest ++ [third], by simp⟩
    refine ⟨before, second, ?_, hsecond⟩
    rw [stripEnds_eq]
    exact (stripLast_eq_concat_iff hsecond).mpr ⟨last, hlast, hleft⟩

theorem nextRoute?_eq_some_iff {hs : Headers} {uri : Uri} : hs.nextRoute? = some uri ↔
    ∃ value rest, hs.routes = value :: rest ∧ NameAddr.uri? value = some uri := by
  unfold Headers.nextRoute?
  cases hs.routes with
  | nil => simp
  | cons value rest => simp

/-- The Route list is what is kept of it with at most one own entry in front and one behind, the entry at the head
if it is an own one and then the entry at the end of what is left if that is one, and their number is the number
that is given; the other fields stay. The request is sent to the proxy itself by its own Route exactly if the list
began with two own entries and a third entry, and the last entry that is kept is an own one exactly if the list
ended with two own entries behind another entry. -/
theorem stripRoutes_takes_ends (own : OwnAddresses) (known : KnownHosts) (hs : Headers) :
    (∃ front back left, hs.routes = front ++ left ∧ left = (own.stripRoutes known hs).1.routes ++ back ∧
      front = own.ownEntry known hs.routes.head? ∧ back = own.ownEntry known left.getLast? ∧
        (own.stripRoutes known hs).2 = front.length + back.length ∧ front.length ≤ 1 ∧ back.length ≤ 1 ∧
          ∀ value ∈ front ++ back, ∃ uri, NameAddr.uri? value = some uri ∧ own.ownsUri known uri = true) ∧
      (own.stripRoutes known hs).1.without .route = hs.without .route ∧
        ((∃ uri, (own.stripRoutes known hs).1.nextRoute? = some uri ∧ own.ownsUri known uri = true) ↔
          ∃ first second third rest, hs.routes = first :: second :: third :: rest ∧
            own.ownsRoute known first = true ∧ own.ownsRoute known second = true) ∧
          ((∃ front value, (own.stripRoutes known hs).1.routes = front ++ [value] ∧
              own.ownsRoute known value = true) ↔
            ∃ front third second last, hs.routes = front ++ [third, second, last] ∧
              own.ownsRoute known second = true ∧ own.ownsRoute known last = true) := by
  have hkept := routes_stripRoutes own known hs
  have hfirst := ownEntry_append_stripFirst own known hs.routes
  have hwhole := ownEntry_append_stripEnds own known hs.routes
  refine ⟨⟨_, _, own.stripFirst known hs.routes, hfirst.symm, ?_, rfl, rfl, ?_, length_ownEntry_le _,
    length_ownEntry_le _, fun value hvalue => ?_⟩, Headers.without_stripRoutes own known hs, ?_, ?_⟩
  · rw [hkept, stripEnds_eq, stripLast_append_ownEntry]
  · have hlength := congrArg List.length hwhole
    rw [List.length_append, List.length_append] at hlength
    rw [stripRoutes]
    dsimp only
    omega
  · rcases List.mem_append.mp hvalue with h | h
    · exact ownsRoute_iff.mp (owns_of_mem_ownEntry h)
    · exact ownsRoute_iff.mp (owns_of_mem_ownEntry h)
  · rw [← owns_head_stripEnds_iff, ← hkept]
    constructor
    · rintro ⟨uri, hnext, howns⟩
      obtain ⟨value, rest, hroutes, huri⟩ := nextRoute?_eq_some_iff.mp hnext
      exact ⟨value, rest, hroutes, ownsRoute_iff.mpr ⟨uri, huri, howns⟩⟩
    · rintro ⟨value, rest, hroutes, howns⟩
      obtain ⟨uri, huri, howns⟩ := ownsRoute_iff.mp howns
      exact ⟨uri, nextRoute?_eq_some_iff.mpr ⟨value, rest, hroutes, huri⟩, howns⟩
  · rw [hkept, owns_last_stripEnds_iff]

open OutgoingCall in
/-- Of two own entries at the head of three the second one is left, and the request goes back to the proxy. -/
theorem second_own_route_left :
    let own := (Context.ofSettings settings).own
    let asked := [field .route "<sip:192.0.2.1:5060;lr>", field .route "<sip:10.0.0.1:5060;lr>",
      field .route "<sip:192.0.2.9;lr>"]
    let (kept, removed) := own.stripRoutes registered.knownHosts asked
    removed = 1 ∧ kept.routes = ["<sip:10.0.0.1:5060;lr>".toList, "<sip:192.0.2.9;lr>".toList] ∧
      kept.nextRoute?.map (own.ownsUri registered.knownHosts) = some true := by
  decide +kernel

end BorderProxy.OwnAddresses
