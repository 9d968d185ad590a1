import TopicLinks.Proofs.Pool.Invariant

/-!
# Canonical sharing

For each bundle, path and fragment a table has one storage, and all handles made through the
table share it. Equality of handles does not depend on tables at all: it is equality of
bundle, path and fragment, although it looks at the storages first.
-/

namespace TopicLinks.Session

variable {s : Session}

/-- Handles in use are told apart by their keys as well as by their addresses. -/
theorem Invariant.key_eq_iff (h : s.Invariant) {a b : Handle} (ha : a ∈ s.live) (hb : b ∈ s.live) :
    a.identity.key = b.identity.key ↔ a.identity.address = b.identity.address :=
  Address.IsReadable.key_inj (h.isReadable ha) (h.isReadable hb)

/-- Two handles in use share storage exactly when they are of one key in one table. -/
theorem Invariant.sharesStorage_iff (h : s.Invariant) {a b : Handle} (ha : a ∈ s.live)
    (hb : b ∈ s.live) :
    a.SharesStorage b ↔ a.table = b.table ∧ a.identity.key = b.identity.key := by
  rw [h.key_eq_iff ha hb]
  exact h.consistent.sharing _ (holding_mem_holdings ha) _ (holding_mem_holdings hb)

/-- Two handles in use are equal exactly when they are of one key. -/
theorem Invariant.equals_iff (h : s.Invariant) {a b : Handle} (ha : a ∈ s.live)
    (hb : b ∈ s.live) : a.Equals b ↔ a.identity.key = b.identity.key := by
  constructor
  · rintro (hshares | hsame)
    · exact ((h.sharesStorage_iff ha hb).mp hshares).2
    · exact (h.key_eq_iff ha hb).mpr hsame
  · intro hkey
    exact Or.inr ((h.key_eq_iff ha hb).mp hkey)

/-- A failed command leaves the session as it was. -/
theorem after_eq_of_error {command : Command} {e : CommandError} (h : s.run command = .error e) :
    s.after command = s := by
  rw [after, h]

/-- A look-up of a name never fails for want of a language. -/
theorem requirePool_ne_noLanguage {pool : String} : s.requirePool pool ≠ .error .noLanguage := by
  unfold requirePool
  split <;> simp

theorem requireHandle_ne_noLanguage {name : String} :
    s.requireHandle name ≠ .error .noLanguage := by
  unfold requireHandle
  split <;> simp

/-- A computation that may fail fails in its first part or after it. -/
theorem bind_eq_error {ε α β : Type} {x : Except ε α} {f : α → Except ε β} {e : ε}
    (h : (x >>= f) = .error e) : x = .error e ∨ ∃ a, x = .ok a ∧ f a = .error e := by
  cases x with
  | error e' =>
    left
    cases h
    rfl
  | ok a => exact Or.inr ⟨a, rfl, h⟩

/-- A recipe that starts from a handle never fails for want of a language. -/
theorem source_ne_noLanguage {α : Type} {pool source : String} {f : TableId → Handle → α} :
    (do
      let table ← s.requirePool pool
      let handle ← s.requireHandle source
      Except.ok (f table handle)) ≠ .error .noLanguage := by
  intro h
  rcases bind_eq_error h with h | ⟨table, _, h⟩
  · exact requirePool_ne_noLanguage h
  · rcases bind_eq_error h with h | ⟨handle, _, h⟩
    · exact requireHandle_ne_noLanguage h
    · cases h

/-- A recipe fails for want of a language only if it interns without one in a known pool. -/
theorem prepare_eq_noLanguage {recipe : Recipe} (h : s.prepare recipe = .error .noLanguage) :
    ∃ pool bundle path fragment,
      recipe = .intern pool bundle path fragment [] ∧ (s.pool? pool).isSome := by
  cases recipe with
  | intern pool bundle path fragment languages =>
    rcases bind_eq_error h with h | ⟨table, htable, h⟩
    · exact absurd h requirePool_ne_noLanguage
    · cases languages with
      | nil =>
        refine ⟨pool, bundle, path, fragment, rfl, ?_⟩
        rw [requirePool_eq_ok htable]
        rfl
      | cons language rest => simp [Identity.intern?] at h
  | withFragment | addLanguages | append | appendLink => exact absurd h source_ne_noLanguage
  | copy source =>
    rcases bind_eq_error h with h | ⟨handle, _, h⟩
    · exact absurd h requireHandle_ne_noLanguage
    · cases h

/-- A command fails for want of a language exactly when it interns without one in a known
pool: the check comes before the table is looked at. -/
theorem run_eq_noLanguage_iff {command : Command} :
    s.run command = .error .noLanguage ↔ ∃ name pool bundle path fragment,
      command = .make name (.intern pool bundle path fragment []) ∧ (s.pool? pool).isSome := by
  constructor
  · intro h
    cases command with
    | make name recipe =>
      rcases bind_eq_error h with h | ⟨_, _, h⟩
      · obtain ⟨pool, bundle, path, fragment, rfl, hpool⟩ := prepare_eq_noLanguage h
        exact ⟨name, pool, bundle, path, fragment, rfl, hpool⟩
      · cases h
    | sharePool name source =>
      rcases bind_eq_error h with h | ⟨_, _, h⟩
      · exact absurd h requirePool_ne_noLanguage
      · cases h
    | drop | newPool | dropPool => cases h
  · rintro ⟨name, pool, bundle, path, fragment, rfl, hsome⟩
    obtain ⟨table, htable⟩ := Option.isSome_iff_exists.mp hsome
    have hpool : s.requirePool pool = .ok table := by rw [requirePool, htable]
    simp [run, prepare, hpool, Identity.intern?, bind, Except.bind]

/-- After any commands, two handles share storage exactly when they are of one bundle, path and
fragment in one table, and they are equal exactly when they are of one bundle, path and
fragment in any tables. Interning without a language fails, and a command that fails changes
nothing. -/
theorem sharing_canonical (pool : String) (commands : List Command) :
    let s := (initial pool).afterAll commands
    (∀ x y a b, s.handle? x = some a → s.handle? y = some b →
      (a.SharesStorage b ↔ a.table = b.table ∧ a.identity.key = b.identity.key) ∧
      (a.Equals b ↔ a.identity.key = b.identity.key)) ∧
    (∀ command, s.run command = .error .noLanguage ↔ ∃ name pool bundle path fragment,
      command = .make name (.intern pool bundle path fragment []) ∧ (s.pool? pool).isSome) ∧
    ∀ command e, s.run command = .error e → s.after command = s := by
  intro s
  have hs : s.Invariant := invariant_afterAll pool commands
  refine ⟨fun x y a b hx hy => ?_, fun command => run_eq_noLanguage_iff,
    fun command e => after_eq_of_error⟩
  have ha := live_of_handle? hx
  have hb := live_of_handle? hy
  exact ⟨hs.sharesStorage_iff ha hb, hs.equals_iff ha hb⟩

/-- One page interned, appended, and looked at through another pool: the first two handles
share storage, and the third is equal to them without sharing. -/
theorem sharing_canonical_of_spellings :
    let s := (initial "main").afterAll [
      .make "root" (.intern "main" "kit" "/" none ["swift"]),
      .make "page" (.intern "main" "kit" "/My%20Article" none ["occ"]),
      .make "below" (.append "main" "root" "My Article"),
      .newPool "other",
      .make "twin" (.addLanguages "other" "page" ["swift"])]
    ∃ a b c, s.handle? "page" = some a ∧ s.handle? "below" = some b ∧
      s.handle? "twin" = some c ∧ a.SharesStorage b ∧ ¬a.SharesStorage c ∧ a.Equals c := by
  intro s
  have h := (sharing_canonical "main" [
      .make "root" (.intern "main" "kit" "/" none ["swift"]),
      .make "page" (.intern "main" "kit" "/My%20Article" none ["occ"]),
      .make "below" (.append "main" "root" "My Article"),
      .newPool "other",
      .make "twin" (.addLanguages "other" "page" ["swift"])]).1
  refine ⟨_, _, _, rfl, rfl, rfl, ?_, ?_, ?_⟩
  · exact (h "page" "below" _ _ rfl rfl).1.mpr ⟨rfl, by decide⟩
  · exact fun hshares => absurd ((h "page" "twin" _ _ rfl rfl).1.mp hshares).1 (by decide)
  · exact (h "page" "twin" _ _ rfl rfl).2.mpr (by decide)

end TopicLinks.Session
