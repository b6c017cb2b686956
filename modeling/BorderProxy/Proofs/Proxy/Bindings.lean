import BorderProxy.Proofs.Proxy.Steps
import BorderProxy.Proofs.Registration.Table

/-! Tables of registrations as the proxy builds them. A REGISTER leaves the table as it is, removes bindings
or stores a single one, and each one that it stores presents its registered URI as the settings say. -/

namespace BorderProxy

/-! What operations leave in a table. -/

namespace Arena

variable {α : Type} {a b : Arena α} {e : Nat × α}

theorem mem_entries_replace {index : Nat} {value : α} (h : e ∈ (a.replace index value).entries) :
    e ∈ a.entries ∨ e.2 = value := by
  obtain ⟨i, v⟩ := e
  rw [mem_entries_iff, get?_replace] at h
  split at h
  · obtain ⟨old, -, hold⟩ := Option.map_eq_some_iff.mp h
    exact .inr hold.symm
  · exact .inl (mem_entries_iff.mpr h)

theorem mem_entries_insert? {index : Nat} {value : α} (hb : a.insert? value = some (index, b))
    (h : e ∈ b.entries) : e ∈ a.entries ∨ e.2 = value := by
  obtain ⟨i, v⟩ := e
  unfold insert? at hb
  split at hb
  · cases hb
  · obtain ⟨rfl, rfl⟩ := Prod.mk.inj (Option.some.inj hb)
    rw [mem_entries_iff, get?_eq_some_iff, List.getElem?_set] at h
    split at h
    · split at h
      · exact .inr (Option.some.inj (Option.some.inj h)).symm
      · cases h
    · exact .inl (mem_entries_iff.mpr (get?_eq_some_iff.mpr h))

theorem mem_entries_eraseAll {indices : List Nat} (h : e ∈ (a.eraseAll indices).entries) :
    e ∈ a.entries := by
  obtain ⟨i, v⟩ := e
  rw [mem_entries_iff, get?_eraseAll] at h
  split at h
  · cases h
  · exact mem_entries_iff.mpr h

end Arena

namespace Registrations

variable {t t' : Registrations}

theorem mem_entries_removeWhere {p : Registration → Bool} {e : Nat × Registration}
    (h : e ∈ (t.removeWhere p).2.entries) : e ∈ t.entries := Arena.mem_entries_eraseAll h

theorem mem_entries_upsert {known : KnownHosts} {r : Registration} {slot : Nat}
    (hupsert : t.upsert known r = .ok (slot, t')) {e : Nat × Registration} (h : e ∈ t'.entries) :
    e ∈ t.entries ∨ e.2 = r := by
  rcases of_upsert hupsert with rfl | hstored
  · exact Arena.mem_entries_replace h
  · exact Arena.mem_entries_insert? hstored h

/-! What a REGISTER does to a table. -/

/-- What can become of a table of registrations in a REGISTER. -/
inductive Updated (cx : Context) (t : Registrations) : Registrations → Prop
  | same : Updated cx t t
  | unbound (known : KnownHosts) (registered : Uri) (contact : Option Uri) :
      Updated cx t (t.unregister known registered contact).2
  | bound (known : KnownHosts) {r : Registration} {slot : Nat} {t' : Registrations}
      (hpresented : r.presented = cx.presented r.registered)
      (hupsert : t.upsert known r = .ok (slot, t')) : Updated cx t t'

theorem registrations_authenticate (r : Request) (w : World) :
    (authenticate r w).2.registrations = w.registrations := by
  unfold authenticate
  rw [act_bind, act_get]
  cases w.authenticator <;> rfl

theorem updated_bindContact (cx : Context) (r : Request) (source : Endpoint) (registered contact : Uri)
    (expiry : UInt32) (w : World) :
    w.registrations.Updated cx (bindContact cx r source registered contact expiry w).2.registrations := by
  unfold bindContact
  simp only [act_bind, act_get]
  -- Look-ups change the resolver only.
  generalize hlooked : (lookUpHost _ (lookUpHost _ (lookUpHost _ w).2).2).2 = v
  have hsame : v.registrations = w.registrations := by rw [← hlooked]; rfl
  generalize hresult : upsert v.knownHosts _ v.registrations = result
  rw [hsame] at hresult
  rcases result with fault | ⟨slot, t'⟩
  · show w.registrations.Updated cx v.registrations
    rw [hsame]
    exact .same
  · exact .bound v.knownHosts rfl hresult

theorem updated_register (cx : Context) (r : Request) (source : Endpoint) (w : World) :
    w.registrations.Updated cx (register cx r source w).2.registrations := by
  rw [← registrations_authenticate r w]
  unfold register
  rw [act_bind]
  rcases authenticate r w with ⟨verdict, v⟩
  have hunbound : ∀ registered contact,
      v.registrations.Updated cx (BorderProxy.unregister registered contact v).2.registrations :=
    fun registered contact => .unbound v.knownHosts registered contact
  cases verdict with
  | challenge field => exact .same
  | authorized =>
      dsimp only
      cases r.headers.toUri? with
      | none => exact .same
      | some registered =>
          cases registerContact? r.headers with
          | none => exact .same
          | some binding =>
              cases binding with
              | all => exact hunbound registered none
              | one contact =>
                  dsimp only
                  split
                  · exact hunbound registered (some contact)
                  · exact updated_bindContact cx r source registered contact _ v

/-! Tables that were built. -/

/-- A table that begins empty and then changes only by the REGISTERs that the proxy carries out, in
whatever worlds, and by the removal of expired bindings. -/
inductive Built (cx : Context) : Registrations → Prop
  | empty (capacity : Nat) : Built cx (.empty capacity)
  | register (r : Request) (source : Endpoint) {w : World} (h : Built cx w.registrations) :
      Built cx (register cx r source w).2.registrations
  | age (now : Instant) {t : Registrations} (h : Built cx t) : Built cx (t.age now).2

/-- In a table that was built every binding presents its registered URI as the settings say. -/
theorem Built.presented {cx : Context} (h : t.Built cx) {e : Nat × Registration} (he : e ∈ t.entries) :
    e.2.presented = cx.presented e.2.registered := by
  induction h generalizing e with
  | empty capacity =>
      rw [Arena.entries_empty] at he
      cases he
  | age now h ih => exact ih (mem_entries_removeWhere he)
  | @register r source w h ih =>
      have hupdated := updated_register cx r source w
      generalize (BorderProxy.register cx r source w).2.registrations = after at hupdated he
      cases hupdated with
      | same => exact ih he
      | unbound known registered contact => exact ih (mem_entries_removeWhere he)
      | bound known hpresented hupsert =>
          rcases mem_entries_upsert hupsert he with hold | hnew
          · exact ih hold
          · rw [hnew]
            exact hpresented

theorem Built.presented_of_current {cx : Context} (h : t.Built cx) {now : Instant} {r : Registration}
    (hr : r ∈ t.current now) : r.presented = cx.presented r.registered := by
  obtain ⟨e, he, rfl⟩ := List.mem_map.mp (List.mem_filter.mp hr).1
  exact h.presented he

end Registrations

end BorderProxy
