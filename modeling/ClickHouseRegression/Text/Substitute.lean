import ClickHouseRegression.Text.Replace

/-! Substitution for several keys at once, and the loop that replaces one key after the other. The loop
computes the substitution as long as no key is found outside of its own places. -/
namespace ClickHouseRegression.Substitute
open Replace

variable {α : Type}

/-- A letter outside of all keys, or the place of a key. -/
inductive Piece (α : Type) where
  | letter (c : α)
  | hole (key : List α)
  deriving DecidableEq

def Piece.shown (f : List α → List α) : Piece α → List α
  | .letter c => [c]
  | .hole key => f key

/-- The text in which `f` stands at the places of the keys. -/
def render (f : List α → List α) (pieces : List (Piece α)) : List α := pieces.flatMap (Piece.shown f)

theorem render_cons (f : List α → List α) (p : Piece α) (ps : List (Piece α)) :
    render f (p :: ps) = p.shown f ++ render f ps := List.flatMap_cons

variable [DecidableEq α]

def piecesFrom (keys : List (List α)) : ℕ → List α → List (Piece α)
  | _,[] => []
  | skip+1,_ :: t => piecesFrom keys skip t
  | 0,c :: t =>
    match keys.find? (fun key => key <+: c :: t) with
    | some key => .hole key :: piecesFrom keys (key.length-1) t
    | none => .letter c :: piecesFrom keys 0 t

/-- The text cut at the occurrences of the keys, from the left. -/
def pieces (keys : List (List α)) (t : List α) : List (Piece α) := piecesFrom keys 0 t

/-- What stands for each key after the entries were applied in turn. -/
def assigned (entries : List (List α × List α)) (f : List α → List α) : List α → List α :=
  entries.foldl (fun f e => Function.update f e.1 e.2) f

/-- Every occurrence of a key in the text gives way to its own value. -/
def substitute (entries : List (List α × List α)) (t : List α) : List α :=
  render (assigned entries id) (pieces (entries.map Prod.fst) t)

/-- `for key, value in entries: t = t.replace(key, value)`. -/
def replaceAll (entries : List (List α × List α)) (t : List α) : List α :=
  entries.foldl (fun t e => replace e.1 e.2 t) t

/-- In the text as it is shown, the key begins in no other place than its own. -/
def Only (f : List α → List α) (key : List α) : List (Piece α) → Prop
  | [] => True
  | p :: ps => (p ≠ .hole key → ¬ Begins key (p.shown f) (render f ps)) ∧ Only f key ps

/-- Each key, at its turn, occurs in its own places only. -/
def Undisturbed (ps : List (Piece α)) : List (List α × List α) → (List α → List α) → Prop
  | [],_ => True
  | e :: entries,f => Only f e.1 ps ∧ Undisturbed ps entries (Function.update f e.1 e.2)

/-- In the original text no other key begins in the place of a key. -/
def Separate (keys : List (List α)) : List (Piece α) → Prop
  | [] => True
  | .letter _ :: ps => Separate keys ps
  | .hole h :: ps => (∀ key ∈ keys, key ≠ h → ¬ Begins key h (render id ps)) ∧ Separate keys ps

section
variable {keys : List (List α)}

theorem piecesFrom_skip (skip : ℕ) (t : List α) : piecesFrom keys skip t = pieces keys (t.drop skip) := by
  induction t generalizing skip with
  | nil =>
    rw [List.drop_nil]
    cases skip <;> rfl
  | cons c t ih =>
    cases skip with
    | zero => rfl
    | succ skip => exact ih skip

theorem pieces_cons_of_none {c : α} {t : List α}
    (h : keys.find? (fun key => key <+: c :: t) = none) : pieces keys (c :: t) = .letter c :: pieces keys t := by
  rw [pieces,piecesFrom,h]
  rfl

theorem pieces_cons_of_some {c : α} {t key : List α} (hkey : key ≠ [])
    (h : keys.find? (fun key => key <+: c :: t) = some key) :
    pieces keys (c :: t) = .hole key :: pieces keys ((c :: t).drop key.length) := by
  rw [pieces,piecesFrom,h]
  dsimp only
  rw [piecesFrom_skip]
  obtain ⟨k,hk⟩ := Nat.exists_eq_succ_of_ne_zero (List.length_pos_iff.2 hkey).ne'
  rw [hk]
  rfl

/-- Nothing of the text is lost. -/
theorem render_pieces (hkeys : ∀ key ∈ keys, key ≠ []) (t : List α) : render id (pieces keys t) = t := by
  induction hn : t.length using Nat.strong_induction_on generalizing t with
  | _ n ih =>
    subst hn
    cases t with
    | nil => rfl
    | cons c t =>
      cases hfind : keys.find? (fun key => key <+: c :: t) with
      | none =>
        rw [pieces_cons_of_none hfind,render_cons,ih t.length (Nat.lt_succ_self _) t rfl]
        rfl
      | some key =>
        have hne := hkeys key (List.mem_of_find?_eq_some hfind)
        have hprefix : key <+: c :: t := by simpa using List.find?_some hfind
        have hpos := List.length_pos_iff.2 hne
        rw [pieces_cons_of_some hne hfind,render_cons,
          ih _ (by rw [List.length_drop,List.length_cons]; omega) _ rfl]
        exact List.prefix_iff_eq_append.1 hprefix

omit [DecidableEq α] in
theorem separate_congr {keys' : List (List α)} (hsame : ∀ key, key ∈ keys' ↔ key ∈ keys)
    (ps : List (Piece α)) : Separate keys' ps ↔ Separate keys ps := by
  induction ps with
  | nil => exact Iff.rfl
  | cons p ps ih =>
    cases p with
    | letter c => exact ih
    | hole h => simp only [Separate,hsame,ih]

/-- Which of the keys is looked for first does not matter where they do not overlap. -/
theorem pieces_congr {keys' : List (List α)} (hkeys : ∀ key ∈ keys, key ≠ [])
    (hsame : ∀ key, key ∈ keys' ↔ key ∈ keys) {t : List α} (h : Separate keys (pieces keys t)) :
    pieces keys' t = pieces keys t := by
  induction hn : t.length using Nat.strong_induction_on generalizing t with
  | _ n ih =>
    subst hn
    cases t with
    | nil => rfl
    | cons c t =>
      cases hfind : keys.find? (fun key => key <+: c :: t) with
      | none =>
        have hfind' : keys'.find? (fun key => key <+: c :: t) = none := by
          rw [List.find?_eq_none] at hfind ⊢
          intro key hkey
          exact hfind key ((hsame key).1 hkey)
        rw [pieces_cons_of_none hfind] at h ⊢
        rw [pieces_cons_of_none hfind',ih t.length (Nat.lt_succ_self _) h rfl]
      | some key =>
        have hmem := List.mem_of_find?_eq_some hfind
        have hne := hkeys key hmem
        have hprefix : key <+: c :: t := by simpa using List.find?_some hfind
        have hpos := List.length_pos_iff.2 hne
        rw [pieces_cons_of_some hne hfind] at h ⊢
        have hfind' : keys'.find? (fun key => key <+: c :: t) = some key := by
          cases hother : keys'.find? (fun key => key <+: c :: t) with
          | none =>
            rw [List.find?_eq_none] at hother
            exact absurd (decide_eq_true hprefix) (hother key ((hsame key).2 hmem))
          | some key' =>
            by_contra hdiff
            have hkey' := (hsame key').1 (List.mem_of_find?_eq_some hother)
            have hprefix' : key' <+: c :: t := by simpa using List.find?_some hother
            apply h.1 key' hkey' (fun heq => hdiff (by rw [heq]))
            refine ⟨[],key,rfl,hne,?_⟩
            rw [render_pieces hkeys]
            rwa [← List.prefix_iff_eq_append.1 hprefix] at hprefix'
        rw [pieces_cons_of_some hne hfind',
          ih _ (by rw [List.length_drop,List.length_cons]; omega) h.2 rfl]

end

/-- One turn of the loop fills the places of its key. -/
theorem replace_render {key : List α} (hkey : key ≠ []) (value : List α) {f : List α → List α}
    (hf : f key = key) {ps : List (Piece α)} (h : Only f key ps) :
    replace key value (render f ps) = render (Function.update f key value) ps := by
  induction ps with
  | nil => exact replace_nil hkey value
  | cons p ps ih =>
    obtain ⟨hfirst,hrest⟩ := h
    rw [render_cons,render_cons,← ih hrest]
    by_cases hp : p = .hole key
    · rw [hp]
      simp only [Piece.shown,hf,Function.update_self]
      exact replace_key hkey value _
    · rw [replace_passes hkey value (hfirst hp)]
      cases p with
      | letter c => rfl
      | hole other =>
        have hother : other ≠ key := fun heq => hp (by rw [heq])
        simp only [Piece.shown,Function.update_of_ne hother]

theorem replaceAll_render {entries : List (List α × List α)} {f : List α → List α} {ps : List (Piece α)}
    (hkeys : ∀ key ∈ entries.map Prod.fst, key ≠ []) (hnodup : (entries.map Prod.fst).Nodup)
    (hf : ∀ key ∈ entries.map Prod.fst, f key = key) (h : Undisturbed ps entries f) :
    replaceAll entries (render f ps) = render (assigned entries f) ps := by
  induction entries generalizing f with
  | nil => rfl
  | cons e entries ih =>
    rw [List.map_cons,List.nodup_cons] at hnodup
    rw [replaceAll,List.foldl_cons,replace_render (hkeys e.1 List.mem_cons_self) e.2
      (hf e.1 List.mem_cons_self) h.1]
    refine ih (fun key hkey => hkeys key (List.mem_cons_of_mem _ hkey)) hnodup.2 ?_ h.2
    intro key hkey
    have hne : key ≠ e.1 := fun heq => hnodup.1 (heq ▸ hkey)
    rw [Function.update_of_ne hne]
    exact hf key (List.mem_cons_of_mem _ hkey)

/-- The loop is the substitution where it finds every key in its own places only. -/
theorem replaceAll_eq_substitute {entries : List (List α × List α)} {t : List α}
    (hkeys : ∀ key ∈ entries.map Prod.fst, key ≠ []) (hnodup : (entries.map Prod.fst).Nodup)
    (h : Undisturbed (pieces (entries.map Prod.fst) t) entries id) :
    replaceAll entries t = substitute entries t := by
  have hrun := replaceAll_render (f := id) hkeys hnodup (fun _ _ => rfl) h
  rwa [render_pieces hkeys] at hrun

theorem assigned_perm {entries entries' : List (List α × List α)} (hnodup : (entries.map Prod.fst).Nodup)
    (h : entries.Perm entries') (f : List α → List α) : assigned entries f = assigned entries' f := by
  apply h.foldl_eq'
  intro e he e' he' g
  by_cases heq : e = e'
  · rw [heq]
  · have hne : e.1 ≠ e'.1 := fun hkey => heq (List.inj_on_of_nodup_map hnodup he he' hkey)
    exact Function.update_comm hne e.2 e'.2 g

/-- The substitution does not depend on the order of the entries. -/
theorem substitute_perm {entries entries' : List (List α × List α)} {t : List α}
    (hkeys : ∀ key ∈ entries.map Prod.fst, key ≠ []) (hnodup : (entries.map Prod.fst).Nodup)
    (hsep : Separate (entries.map Prod.fst) (pieces (entries.map Prod.fst) t))
    (h : entries.Perm entries') : substitute entries' t = substitute entries t := by
  have hsame : ∀ key, key ∈ entries'.map Prod.fst ↔ key ∈ entries.map Prod.fst :=
    fun key => (h.map Prod.fst).symm.mem_iff
  rw [substitute,substitute,pieces_congr hkeys hsame hsep,assigned_perm hnodup h]

section
variable (f : List α → List α) (key : List α)

instance decidableBegins : (u t : List α) → Decidable (Begins key u t)
  | [],_ => isFalse not_begins_nil
  | _ :: u,t =>
    have := decidableBegins u t
    decidable_of_iff _ begins_cons.symm

instance decidableOnly : (ps : List (Piece α)) → Decidable (Only f key ps)
  | [] => isTrue trivial
  | p :: ps =>
    have := decidableOnly ps
    inferInstanceAs (Decidable ((p ≠ .hole key → ¬ Begins key (p.shown f) (render f ps)) ∧ Only f key ps))

end

instance decidableUndisturbed (ps : List (Piece α)) :
    (entries : List (List α × List α)) → (f : List α → List α) → Decidable (Undisturbed ps entries f)
  | [],_ => isTrue trivial
  | e :: entries,f =>
    have := decidableUndisturbed ps entries (Function.update f e.1 e.2)
    inferInstanceAs (Decidable (Only f e.1 ps ∧ Undisturbed ps entries (Function.update f e.1 e.2)))

instance decidableSeparate (keys : List (List α)) : (ps : List (Piece α)) → Decidable (Separate keys ps)
  | [] => isTrue trivial
  | .letter _ :: ps => decidableSeparate keys ps
  | .hole h :: ps =>
    have := decidableSeparate keys ps
    inferInstanceAs (Decidable
      ((∀ key ∈ keys, key ≠ h → ¬ Begins key h (render id ps)) ∧ Separate keys ps))

end ClickHouseRegression.Substitute
