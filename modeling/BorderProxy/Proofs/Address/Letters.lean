import BorderProxy.Proofs.Text.Pieces
import BorderProxy.Resolver

/-! The case of letters in the text of an address. The marks between the parts of an address are no letters, and a
hexadecimal digit has one value in both cases. So a text is read as an address just as in lower case, and what is
known about a host does not depend on the case in which its name is written. -/

namespace BorderProxy

namespace Text

/-- What is the same for each capital letter and its small letter does not depend on case. -/
theorem toLower_invariant {α : Type} (f : Char → α)
    (h : ∀ n < 26, f (Char.ofNat (n + 65)).toLower = f (Char.ofNat (n + 65))) (c : Char) :
    f c.toLower = f c := by
  by_cases hc : 65 ≤ c.toNat ∧ c.toNat ≤ 90
  · have hletter := h (c.toNat - 65) (by omega)
    rwa [Nat.sub_add_cancel hc.1, Char.ofNat_toNat] at hletter
  · have hsame : c.toLower = c := dif_neg hc
    rw [hsame]

theorem digit?_toLower : ∀ c : Char, digit? c.toLower = digit? c := toLower_invariant digit? (by decide)

theorem hexDigit?_toLower : ∀ c : Char, hexDigit? c.toLower = hexDigit? c :=
  toLower_invariant hexDigit? (by decide)

theorem mapM_lower {value? : Char → Option Nat} (h : ∀ c : Char, value? c.toLower = value? c) (t : Text) :
    (lower t).mapM value? = t.mapM value? := by
  induction t with
  | nil => rfl
  | cons c cs ih =>
      rw [lower] at ih ⊢
      rw [List.map_cons, List.mapM_cons, List.mapM_cons, ih, h]

theorem lower_eq_nil_iff {t : Text} : lower t = [] ↔ t = [] := List.map_eq_nil_iff

theorem length_lower (t : Text) : (lower t).length = t.length := List.length_map ..

/-- A character that is the small letter of no other one. -/
def IsCaseless (mark : Char) : Prop := ∀ c : Char, decide (c.toLower = mark) = decide (c = mark)

section Marks

variable {mark : Char} (hmark : IsCaseless mark)

include hmark

theorem IsCaseless.iff (c : Char) : c.toLower = mark ↔ c = mark := decide_eq_decide.mp (hmark c)

theorem splitOn_lower (t : Text) : splitOn mark (lower t) = (splitOn mark t).map lower := by
  unfold splitOn lower
  induction t with
  | nil => rfl
  | cons c cs ih =>
      rw [List.map_cons, splitWhere.eq_def, splitWhere.eq_def]
      simp only [beq_iff_eq, hmark.iff, ih]
      split
      · rfl
      · cases splitWhere (· == mark) cs <;> rfl

end Marks

theorem afterPrefix?_lower {pattern : Text} (hpattern : ∀ mark ∈ pattern, IsCaseless mark) (t : Text) :
    afterPrefix? pattern (lower t) = (afterPrefix? pattern t).map lower := by
  unfold lower
  induction pattern generalizing t with
  | nil => rfl
  | cons mark marks ih =>
      cases t with
      | nil => rfl
      | cons c cs =>
          have hmark := (hpattern mark List.mem_cons_self).iff c
          simp only [List.map_cons, afterPrefix?, beq_iff_eq, eq_comm (a := mark), hmark]
          split
          · exact ih (fun m hm => hpattern m (List.mem_cons_of_mem _ hm)) cs
          · rfl

theorem cutAt?_lower {pattern : Text} (hpattern : ∀ mark ∈ pattern, IsCaseless mark) (t : Text) :
    cutAt? pattern (lower t) = (cutAt? pattern t).map fun parts => (lower parts.1, lower parts.2) := by
  induction t with
  | nil => rfl
  | cons c cs ih =>
      have hfront := afterPrefix?_lower hpattern (c :: cs)
      have hcons : lower (c :: cs) = c.toLower :: lower cs := rfl
      rw [hcons] at hfront ⊢
      rw [cutAt?, cutAt?, hfront]
      cases afterPrefix? pattern (c :: cs) with
      | some after => rfl
      | none =>
          dsimp only [Option.map_none]
          rw [ih]
          cases cutAt? pattern cs <;> rfl

theorem isCaseless_point : IsCaseless '.' := toLower_invariant (fun c => decide (c = '.')) (by decide)

theorem isCaseless_colon : IsCaseless ':' := toLower_invariant (fun c => decide (c = ':')) (by decide)

theorem isCaseless_zero : IsCaseless '0' := toLower_invariant (fun c => decide (c = '0')) (by decide)

theorem isCaseless_opening : IsCaseless '[' := toLower_invariant (fun c => decide (c = '[')) (by decide)

theorem isCaseless_closing : IsCaseless ']' := toLower_invariant (fun c => decide (c = ']')) (by decide)

end Text

open Text

namespace Ip

theorem readByte_lower (t : Text) : readByte (lower t) = readByte t := by
  have hzero : (lower t).head? = some '0' ↔ t.head? = some '0' := by
    cases t with
    | nil => exact Iff.rfl
    | cons c cs => simpa [lower] using isCaseless_zero.iff c
  unfold readByte
  simp only [lower_eq_nil_iff, hzero, mapM_lower digit?_toLower, length_lower]

theorem readQuad_lower (t : Text) : readQuad (lower t) = readQuad t := by
  unfold readQuad
  rw [splitOn_lower isCaseless_point]
  rcases splitOn '.' t with _ | ⟨a, _ | ⟨b, _ | ⟨c, _ | ⟨d, _ | ⟨e, rest⟩⟩⟩⟩⟩
  case cons.cons.cons.cons.nil => simp only [List.map_cons, List.map_nil, readByte_lower]
  all_goals rfl

theorem readV4_lower (t : Text) : readV4 (lower t) = readV4 t := by
  rw [readV4, readV4, readQuad_lower]

theorem readGroup_lower (t : Text) : readGroup (lower t) = readGroup t := by
  unfold readGroup
  simp only [lower_eq_nil_iff, mapM_lower hexDigit?_toLower, length_lower]

theorem readGroups_lower (quadLast : Bool) (pieces : List Text) :
    readGroups quadLast (pieces.map lower) = readGroups quadLast pieces := by
  induction pieces with
  | nil => rfl
  | cons piece rest ih =>
      cases rest with
      | nil =>
          rw [List.map_singleton, readGroups, readGroups, readGroup_lower, readQuad_lower]
      | cons next rest =>
          have hmore : ∀ p n : Text, ∀ others, readGroups quadLast (p :: n :: others) =
              (do return (← readGroup p) :: (← readGroups quadLast (n :: others))) :=
            fun _ _ _ => rfl
          rw [List.map_cons, List.map_cons, hmore, hmore, ← List.map_cons, ih, readGroup_lower]

theorem readSide_lower (quadLast : Bool) (t : Text) :
    readSide quadLast (lower t) = readSide quadLast t := by
  unfold readSide
  simp only [lower_eq_nil_iff, splitOn_lower isCaseless_colon, readGroups_lower]

theorem readV6_lower (t : Text) : readV6 (lower t) = readV6 t := by
  unfold readV6
  rw [cutAt?_lower (by simp [isCaseless_colon])]
  cases cutAt? "::".toList t with
  | none =>
      dsimp only [Option.map_none]
      rw [readSide_lower]
  | some parts =>
      obtain ⟨front, back⟩ := parts
      dsimp only [Option.map_some]
      rw [readSide_lower, readSide_lower]

theorem read_lower (t : Text) : read (lower t) = read t := by
  rw [read, read, readV4_lower, readV6_lower]

theorem readHost_bracket (inner : Text) : readHost ('[' :: inner) =
    if inner.getLast? = some ']' then read inner.dropLast else read ('[' :: inner) := by
  simp only [readHost]
  split
  · rename_i hlast
    rw [if_pos hlast]
  · rename_i hlast
    rw [if_neg hlast]

theorem readHost_of_ne {c : Char} (hc : c ≠ '[') (cs : Text) : readHost (c :: cs) = read (c :: cs) := by
  unfold readHost
  split
  · rename_i heq
    exact absurd (List.cons.inj heq).1 hc
  · rfl

/-- A host is read as an address just as in lower case. -/
theorem readHost_lower (t : Text) : readHost (lower t) = readHost t := by
  cases t with
  | nil => rfl
  | cons c inner =>
      have hcons : lower (c :: inner) = c.toLower :: lower inner := rfl
      by_cases hc : c = '['
      · subst hc
        have hbracket : ('[' : Char).toLower = '[' := rfl
        have hlast : (lower inner).getLast? = some ']' ↔ inner.getLast? = some ']' := by
          rw [lower, List.getLast?_map, Option.map_eq_some_iff]
          simp only [isCaseless_closing.iff, exists_eq_right]
        have hwhole : read ('[' :: lower inner) = read ('[' :: inner) := read_lower ('[' :: inner)
        have hinner : read (lower inner).dropLast = read inner.dropLast := by
          rw [lower, ← List.map_dropLast]
          exact read_lower inner.dropLast
        rw [hcons, hbracket, readHost_bracket, readHost_bracket, hwhole, hinner]
        simp only [hlast]
      · rw [readHost_of_ne hc, hcons, readHost_of_ne (mt (isCaseless_opening.iff c).mp hc), ← hcons, read_lower]

end Ip

/-- What is known about a host does not depend on the case in which its name is written. -/
theorem Resolver.cached_congr (r : Resolver) (now : Instant) {host host' : Text}
    (h : Text.sameLetters host host' = true) : r.cached now host = r.cached now host' := by
  have hlower : lower host = lower host' := beq_iff_eq.mp h
  have hread : Ip.readHost host = Ip.readHost host' := by
    rw [← Ip.readHost_lower host, hlower, Ip.readHost_lower]
  unfold cached
  rw [hread, hlower]

end BorderProxy
