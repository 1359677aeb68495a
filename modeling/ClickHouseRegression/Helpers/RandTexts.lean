import ClickHouseRegression.Helpers.Literals
import ClickHouseRegression.Helpers.Replay
import ClickHouseRegression.Text.Numerals

/-! The texts that `rand_value` can return and how many they are, for every datatype. A random float
has a text of any length, so the types with floats have no bound. -/
namespace ClickHouseRegression.Helpers
open Sql Fallible

variable {α β : Type}

/-- What a computation can give, for whatever source. -/
def Results (m : (R : RandomSource) → Rand R α) : Set α :=
  {a | ∃ (R : RandomSource) (s s' : R.State), m R s = some (a,s')}

namespace Results

theorem of_gives {m : (R : RandomSource) → Rand R α} (answers : List Answer) {a : α}
    (h : Gives (m replay) answers a) : a ∈ Results m := ⟨replay,answers ++ [],[],h []⟩

theorem gives {m : (R : RandomSource) → Rand R α} (hm : Replays m) {a : α} (h : a ∈ Results m) :
    ∃ answers, Gives (m replay) answers a := by
  obtain ⟨R,s,s',hs⟩ := h
  exact hm R s a s' hs

theorem pure (a : α) : Results (fun R => (Pure.pure a : Rand R α)) = {a} := by
  ext b
  constructor
  · rintro ⟨R,s,s',h⟩
    exact (congrArg Prod.fst (Option.some.inj h)).symm
  · rintro rfl
    exact of_gives [] fun _ => rfl

theorem bind {m : (R : RandomSource) → Rand R α} {f : (R : RandomSource) → α → Rand R β}
    (hm : Replays m) (hf : ∀ a, Replays fun R => f R a) :
    Results (fun R => m R >>= f R) = {b | ∃ a ∈ Results m, b ∈ Results fun R => f R a} := by
  ext b
  constructor
  · rintro ⟨R,s,s',h⟩
    change (m R s).bind (fun p => f R p.1 p.2) = some (b,s') at h
    obtain ⟨⟨a,t⟩,ha,hb⟩ := Option.bind_eq_some_iff.1 h
    exact ⟨a,⟨R,s,t,ha⟩,R,t,s',hb⟩
  · rintro ⟨a,ha,hb⟩
    obtain ⟨first,hfirst⟩ := gives hm ha
    obtain ⟨second,hsecond⟩ := gives (hf a) hb
    exact of_gives _ (hfirst.bind hsecond)

/-- A last step that draws nothing. -/
theorem map {m : (R : RandomSource) → Rand R α} (hm : Replays m) (f : α → β) :
    Results (fun R => m R >>= fun a => (Pure.pure (f a) : Rand R β)) = f '' Results m := by
  rw [bind hm fun a => Replays.pure (f a)]
  simp only [pure]
  ext b
  constructor
  · rintro ⟨a,ha,rfl⟩
    exact ⟨a,ha,rfl⟩
  · rintro ⟨a,ha,rfl⟩
    exact ⟨a,ha,rfl⟩

theorem randint (lo hi : ℤ) : Results (fun R => (Helpers.randint lo hi : Rand R ℤ)) = Set.Icc lo hi := by
  ext n
  constructor
  · rintro ⟨R,s,s',h⟩
    unfold Helpers.randint at h
    split at h
    case isTrue hle =>
      have hmem := R.integer_mem lo hi s hle
      rw [Option.some.inj h] at hmem
      exact hmem
    case isFalse => exact absurd h (by simp)
  · rintro ⟨hlo,hhi⟩
    refine of_gives [.integer n] fun rest => ?_
    show (if lo ≤ hi then some (Answer.toInteger lo hi (some (.integer n)),rest) else none) = _
    rw [if_pos (hlo.trans hhi),Answer.toInteger,if_pos ⟨hlo,hhi⟩]

/-- A random number and what is done with it. -/
theorem mem_randint_bind {lo hi : ℤ} {f : (R : RandomSource) → ℤ → Rand R β}
    (hf : ∀ n, Replays fun R => f R n) (b : β) :
    b ∈ Results (fun R => Helpers.randint lo hi >>= f R) ↔
      ∃ n ∈ Set.Icc lo hi, b ∈ Results fun R => f R n := by
  rw [bind (Replays.randint lo hi) hf,randint]
  rfl

theorem uniform (lo hi : Text) : Results (fun R => (Helpers.uniform lo hi : Rand R Text)) =
    {t | ∀ c ∈ t, floatChar c = true} := by
  ext t
  constructor
  · rintro ⟨R,s,s',h⟩ c hc
    have ht := R.uniform_chars lo hi s
    rw [Option.some.inj h] at ht
    exact decide_eq_true (ht c hc)
  · intro ht
    refine of_gives [.float t] fun rest => ?_
    show some (Answer.toFloat (some (.float t)),rest) = _
    rw [Answer.toFloat,if_pos (List.all_eq_true.2 ht)]

theorem item (l : List α) (i : ℕ) :
    Results (fun R => (Fallible.item l i : Rand R α)) = {a | l[i]? = some a} := by
  ext a
  constructor
  · rintro ⟨R,s,s',h⟩
    obtain ⟨b,hb,hab⟩ := Option.map_eq_some_iff.1 h
    cases hab
    exact hb
  · intro ha
    refine of_gives [] fun rest => ?_
    show (l[i]?).map _ = _
    rw [show l[i]? = some a from ha]
    rfl

end Results

theorem encard_Icc (lo hi : ℤ) : (Set.Icc lo hi).encard = ((hi+1-lo).toNat : ℕ) := by
  rw [← Finset.coe_Icc,Set.encard_coe_eq_coe_finsetCard,Int.card_Icc]

/-- A letter is drawn and then how often it is repeated. -/
theorem mem_randString (max : Text) (most : ℤ) (u : Text) :
    u ∈ Results (fun R => (randString max most : Rand R Text)) ↔
      ∃ i ∈ Set.Icc (1 : ℤ) (max.length-2), ∃ c, max[i.toNat]? = some c ∧
        ∃ n ∈ Set.Icc 0 most, quote (List.replicate n.toNat c) = u := by
  have hcount : ∀ c, Replays fun R => (do
      let n ← randint 0 most
      return quote (List.replicate n.toNat c) : Rand R Text) :=
    fun c => (Replays.randint _ _).bind fun n => .pure _
  refine (Results.mem_randint_bind (fun i => (Replays.item _ _).bind hcount) u).trans
    (exists_congr fun i => and_congr_right fun _ => ?_)
  rw [Results.bind (Replays.item _ _) hcount,Results.item]
  simp only [Results.map (Replays.randint _ _),Results.randint]
  rfl

/-- The texts of a random letter, repeated: the empty one and those of every other length. -/
theorem randString_results {t : Text} {most : ℤ} (ht : t ≠ []) (hmost : 0 ≤ most) :
    Results (fun R => (randString (quote t) most : Rand R Text)) =
      insert (quote []) ((fun p : Char × ℕ => quote (List.replicate (p.2+1) p.1)) ''
        (t.toFinset ×ˢ Finset.range most.toNat : Finset (Char × ℕ))) := by
  have hlength : (quote t).length = t.length+2 := by simp [quote]
  have hpos : 0 < t.length := List.length_pos_iff.2 ht
  ext u
  rw [mem_randString]
  constructor
  · rintro ⟨i,hi,c,hc,n,hn,rfl⟩
    have hct : c ∈ t := quote_getElem_mem hi hc
    rcases eq_or_ne n 0 with rfl | hne
    · exact .inl rfl
    · refine .inr ⟨(c,n.toNat-1),?_,?_⟩
      · obtain ⟨hn0,hnm⟩ := hn
        rw [Finset.mem_coe,Finset.mem_product,List.mem_toFinset,Finset.mem_range]
        exact ⟨hct,by omega⟩
      · obtain ⟨hn0,-⟩ := hn
        have hsucc : n.toNat-1+1 = n.toNat := by omega
        simp only [hsucc]
  · have hdraw : ∀ c ∈ t, ∃ i ∈ Set.Icc (1 : ℤ) ((quote t).length-2), (quote t)[i.toNat]? = some c := by
      intro c hc
      obtain ⟨k,hk,rfl⟩ := List.mem_iff_getElem.1 hc
      refine ⟨k+1,⟨by omega,by omega⟩,?_⟩
      rw [Int.toNat_natCast_add_one,quote,List.getElem?_cons_succ,List.getElem?_append_left hk,
        List.getElem?_eq_getElem hk]
    rintro (rfl | ⟨⟨c,n⟩,hp,rfl⟩)
    · obtain ⟨i,hi,hc⟩ := hdraw _ (List.getElem_mem hpos)
      exact ⟨i,hi,_,hc,0,⟨le_rfl,hmost⟩,rfl⟩
    · rw [Finset.mem_coe,Finset.mem_product,List.mem_toFinset,Finset.mem_range] at hp
      obtain ⟨i,hi,hc⟩ := hdraw c hp.1
      refine ⟨i,hi,c,hc,n+1,⟨by omega,by omega⟩,?_⟩
      show quote (List.replicate ((n : ℤ)+1).toNat c) = quote (List.replicate (n+1) c)
      rw [Int.toNat_natCast_add_one]

theorem replicate_succ_injective :
    Function.Injective fun p : Char × ℕ => quote (List.replicate (p.2+1) p.1) := by
  rintro ⟨c,n⟩ ⟨d,k⟩ h
  have hlist := quote_injective h
  have hlength := congrArg List.length hlist
  rw [List.length_replicate,List.length_replicate] at hlength
  obtain rfl : n = k := by omega
  exact Prod.ext (List.cons.inj hlist).1 rfl

theorem randString_encard {t : Text} {most : ℤ} (ht : t ≠ []) (hmost : 0 ≤ most) :
    (Results (fun R => (randString (quote t) most : Rand R Text))).encard =
      ((t.toFinset.card*most.toNat+1 : ℕ) : ℕ∞) := by
  have hnot : quote [] ∉ (fun p : Char × ℕ => quote (List.replicate (p.2+1) p.1)) ''
      (t.toFinset ×ˢ Finset.range most.toNat : Finset (Char × ℕ)) := by
    rintro ⟨p,-,h⟩
    exact absurd (quote_injective h) (List.cons_ne_nil _ _)
  rw [randString_results ht hmost,Set.encard_insert_of_notMem hnot,
    replicate_succ_injective.encard_image,Set.encard_coe_eq_coe_finsetCard,Finset.card_product,
    Finset.card_range]
  norm_cast

theorem hexField_length {width : ℕ} {n : ℤ} (hw : 0 < width) (hn : n < 16^width) :
    (hexField width n).length = width := by
  have hle : (Nat.toDigits 16 n.toNat).length ≤ width :=
    (Nat.length_toDigits_le_iff (by decide) hw).2 (by
      zify
      have hpow : (0 : ℤ) < 16^width := by positivity
      omega)
  rw [hexField,List.length_append,List.length_replicate]
  omega

theorem hexField_inj {width : ℕ} {m n : ℤ} (hm : 0 ≤ m) (hn : 0 ≤ n)
    (h : hexField width m = hexField width n) : m = n := by
  have hvalue := congrArg Numerals.hexValue h
  rw [hexField,hexField,Numerals.hexValue_zeros,Numerals.hexValue_zeros,Numerals.hexValue_toDigits,
    Numerals.hexValue_toDigits] at hvalue
  omega

/-- Numbers that fit into so many digits. -/
abbrev fields (width : ℕ) : Set ℤ := Set.Icc 0 (16^width-1)

theorem fields_encard (width : ℕ) : (fields width).encard = (16^width : ℕ) := by
  rw [encard_Icc]
  congr 1
  have hpow : (0 : ℤ) < 16^width := by positivity
  zify
  omega

/-- A field and what follows it. -/
theorem hexField_append_inj {width : ℕ} {m n : ℤ} {a b : Text} (hw : 0 < width)
    (hm : m ∈ fields width) (hn : n ∈ fields width)
    (h : hexField width m ++ a = hexField width n ++ b) : m = n ∧ a = b := by
  obtain ⟨hm0,hm1⟩ := hm
  obtain ⟨hn0,hn1⟩ := hn
  have hlength : (hexField width m).length = (hexField width n).length := by
    rw [hexField_length hw (by omega),hexField_length hw (by omega)]
  obtain ⟨hfield,hrest⟩ := List.append_inj h hlength
  exact ⟨hexField_inj hm0 hn0 hfield,hrest⟩

def uuidText (p : ℤ × ℤ × ℤ × ℤ × ℤ) : Text :=
  quote (hexField 8 p.1 ++ "-".toList ++ hexField 4 p.2.1 ++ "-".toList ++ hexField 4 p.2.2.1 ++
    "-".toList ++ hexField 4 p.2.2.2.1 ++ "-".toList ++ hexField 12 p.2.2.2.2)

abbrev uuidFields : Set (ℤ × ℤ × ℤ × ℤ × ℤ) :=
  fields 8 ×ˢ fields 4 ×ˢ fields 4 ×ˢ fields 4 ×ˢ fields 12

theorem uuidText_injOn : Set.InjOn uuidText uuidFields := by
  rintro ⟨a,b,c,d,e⟩ ⟨ha,hb,hc,hd,he⟩ ⟨a',b',c',d',e'⟩ ⟨ha',hb',hc',hd',he'⟩ h
  have hfields := quote_injective h
  simp only [List.append_assoc] at hfields
  obtain ⟨rfl,h1⟩ := hexField_append_inj (by decide) ha ha' hfields
  obtain ⟨rfl,h2⟩ := hexField_append_inj (by decide) hb hb' (List.append_cancel_left h1)
  obtain ⟨rfl,h3⟩ := hexField_append_inj (by decide) hc hc' (List.append_cancel_left h2)
  obtain ⟨rfl,h4⟩ := hexField_append_inj (by decide) hd hd' (List.append_cancel_left h3)
  obtain rfl := hexField_inj he.1 he'.1 (List.append_cancel_left h4)
  rfl

theorem randValue_uuid_results :
    Results (fun R => (Leaf.uuid.randValue : Rand R Text)) = uuidText '' uuidFields := by
  have h5 : ∀ a b c d, Replays fun R => (do
      let e ← randint 0 281474976710655
      return uuidText (a,b,c,d,e) : Rand R Text) :=
    fun a b c d => (Replays.randint _ _).bind fun e => .pure _
  have h4 : ∀ a b c, Replays fun R => (do
      let d ← randint 0 65535
      let e ← randint 0 281474976710655
      return uuidText (a,b,c,d,e) : Rand R Text) :=
    fun a b c => (Replays.randint _ _).bind fun d => h5 a b c d
  have h3 : ∀ a b, Replays fun R => (do
      let c ← randint 0 65535
      let d ← randint 0 65535
      let e ← randint 0 281474976710655
      return uuidText (a,b,c,d,e) : Rand R Text) :=
    fun a b => (Replays.randint _ _).bind fun c => h4 a b c
  have h2 : ∀ a, Replays fun R => (do
      let b ← randint 0 65535
      let c ← randint 0 65535
      let d ← randint 0 65535
      let e ← randint 0 281474976710655
      return uuidText (a,b,c,d,e) : Rand R Text) :=
    fun a => (Replays.randint _ _).bind fun b => h3 a b
  ext t
  have hmem : t ∈ Results (fun R => (Leaf.uuid.randValue : Rand R Text)) ↔
      ∃ a ∈ fields 8, ∃ b ∈ fields 4, ∃ c ∈ fields 4, ∃ d ∈ fields 4, ∃ e ∈ fields 12,
        uuidText (a,b,c,d,e) = t := by
    refine (Results.mem_randint_bind h2 t).trans (exists_congr fun a => and_congr_right fun _ => ?_)
    refine (Results.mem_randint_bind (h3 a) t).trans (exists_congr fun b => and_congr_right fun _ => ?_)
    refine (Results.mem_randint_bind (h4 a b) t).trans (exists_congr fun c => and_congr_right fun _ => ?_)
    refine (Results.mem_randint_bind (h5 a b c) t).trans (exists_congr fun d => and_congr_right fun _ => ?_)
    rw [Results.map (Replays.randint _ _),Results.randint]
    rfl
  rw [hmem]
  constructor
  · rintro ⟨a,ha,b,hb,c,hc,d,hd,e,he,rfl⟩
    exact ⟨(a,b,c,d,e),⟨ha,hb,hc,hd,he⟩,rfl⟩
  · rintro ⟨⟨a,b,c,d,e⟩,⟨ha,hb,hc,hd,he⟩,rfl⟩
    exact ⟨a,ha,b,hb,c,hc,d,hd,e,he,rfl⟩

namespace Leaf

/-- How many texts `rand_value` can return. -/
def randCount : Leaf → ℕ∞
  | int t => ((t.max+1-t.min).toNat : ℕ)
  | float32 => ⊤
  | float64 => ⊤
  | decimal _ _ => ⊤
  | date => 600000001
  | date32 => 600000001
  | dateTime => 600000001
  | dateTime64 _ _ => 600000001
  | string => 5101
  | fixedString length => if 1 ≤ length then ((Min.min length.toNat 51*length.toNat+1 : ℕ) : ℕ∞) else 0
  | boolean => 2
  | uuid => (2^128 : ℕ)

/-- The leaf draws one number, and its text tells which. -/
theorem randint_encard {lo hi : ℤ} {f : ℤ → Text} (hf : Function.Injective f) :
    (Results fun R => (do
      let n ← randint lo hi
      return f n : Rand R Text)).encard = ((hi+1-lo).toNat : ℕ) := by
  rw [Results.map (Replays.randint _ _),Results.randint,hf.encard_image,encard_Icc]

/-- A float of any length. -/
theorem encard_top_of_long {S : Set Text} {f : Text → Text} (hf : Function.Injective f)
    (h : ∀ n, f (List.replicate n '1') ∈ S) : S.encard = ⊤ := by
  rw [Set.encard_eq_top_iff]
  refine Set.infinite_of_injective_forall_mem (fun m n hmn => ?_) h
  have hlength := congrArg List.length (hf hmn)
  rwa [List.length_replicate,List.length_replicate] at hlength

theorem ones_floatChar (n : ℕ) : ∀ c ∈ List.replicate n '1', floatChar c = true := by
  intro c hc
  rw [List.eq_of_mem_replicate hc]
  decide

theorem letters_card : letters.toFinset.card = 51 := by decide +kernel

theorem letters_nodup : letters.Nodup := by decide +kernel

theorem fixedLetters_card {length : ℤ} (h : 1 ≤ length) :
    (fixedLetters length).toFinset.card = Min.min length.toNat 51 := by
  have hletters : letters.length = 51 := by rfl
  unfold fixedLetters takeLetters
  split_ifs with hshort hpos
  · rw [List.toFinset_card_of_nodup (letters_nodup.sublist (List.take_sublist _ _)),List.length_take,
      hletters]
  · omega
  · have hsame : (letters ++ List.replicate (length-51).toNat 'a').toFinset = letters.toFinset := by
      rw [List.toFinset_append,Finset.union_eq_left]
      intro c hc
      rw [List.mem_toFinset] at hc ⊢
      rw [List.eq_of_mem_replicate hc]
      decide
    rw [hsame,letters_card]
    omega

theorem convert_injective (l : Leaf) : Function.Injective l.convert := call_injective _

theorem convert_str_injective (l : Leaf) : Function.Injective fun n => l.convert (str n) :=
  l.convert_injective.comp str_injective

theorem randValue_encard (l : Leaf) :
    (Results fun R => (l.randValue : Rand R Text)).encard = l.randCount := by
  cases l with
  | int t => exact randint_encard (Leaf.int t).convert_str_injective
  | float32 =>
    refine encard_top_of_long (convert_injective float32) fun n => ?_
    change _ ∈ Results fun R => (uniform _ _ >>= fun x => pure (convert float32 x) : Rand R Text)
    rw [Results.map (Replays.uniform _ _),Results.uniform]
    exact ⟨_,ones_floatChar n,rfl⟩
  | float64 =>
    have hinjective : Function.Injective fun x => convert float64 (x ++ "e".toList ++ str 0) := by
      intro x y h
      exact List.append_cancel_right (List.append_cancel_right (convert_injective _ h))
    refine encard_top_of_long hinjective fun n => ?_
    change _ ∈ Results fun R => (uniform _ _ >>= fun x => (do
      let n ← randint 0 308
      return convert float64 (x ++ "e".toList ++ str n)) : Rand R Text)
    rw [Results.bind (Replays.uniform _ _) fun x => (Replays.randint _ _).bind fun _ => .pure _,
      Results.uniform]
    refine ⟨_,ones_floatChar n,?_⟩
    rw [Results.map (Replays.randint _ _),Results.randint]
    exact ⟨0,⟨le_rfl,by decide⟩,rfl⟩
  | decimal t scale =>
    have hinjective : Function.Injective fun x =>
        convert (decimal t scale) (x ++ ",".toList ++ str scale) := by
      intro x y h
      exact List.append_cancel_right (List.append_cancel_right (convert_injective _ h))
    refine encard_top_of_long hinjective fun n => ?_
    change _ ∈ Results fun R => (uniform _ _ >>= fun x =>
      pure (convert (decimal t scale) (x ++ ",".toList ++ str scale)) : Rand R Text)
    rw [Results.map (Replays.uniform _ _),Results.uniform]
    exact ⟨_,ones_floatChar n,rfl⟩
  | date => exact randint_encard date.convert_str_injective
  | date32 => exact randint_encard date32.convert_str_injective
  | dateTime => exact randint_encard dateTime.convert_str_injective
  | dateTime64 precision before228 =>
    refine randint_encard (f := fun n =>
      call "toDateTime64".toList (str n ++ ",".toList ++ str precision)) fun m n h => ?_
    exact str_injective (List.append_cancel_right (List.append_cancel_right (call_injective _ h)))
  | string =>
    refine (randString_encard (t := letters) (by decide +kernel) (by decide)).trans ?_
    rw [letters_card]
    rfl
  | fixedString length =>
    rw [randCount]
    split_ifs with hpos
    · refine (randString_encard (fixedLetters_ne_nil hpos) (by omega)).trans ?_
      rw [fixedLetters_card hpos]
    · -- one of the two ranges is empty
      refine Set.encard_eq_zero.2 (Set.eq_empty_iff_forall_notMem.2 fun u hu => ?_)
      obtain ⟨i,⟨hi1,hi2⟩,c,-,n,⟨hn1,hn2⟩,-⟩ := (mem_randString _ _ u).1 hu
      obtain rfl : length = 0 := by omega
      exact absurd (hi1.trans hi2) (by decide)
  | boolean =>
    have hpair : (Results fun R => (boolean.randValue : Rand R Text)) =
        {"false".toList,"true".toList} := by
      change Results (fun R => (do
        let n ← randint 0 1
        return if n ≠ 0 then "true".toList else "false".toList : Rand R Text)) = _
      rw [Results.map (Replays.randint _ _),Results.randint]
      have hrange : Set.Icc (0 : ℤ) 1 = {0,1} := by
        ext n
        rw [Set.mem_Icc,Set.mem_insert_iff,Set.mem_singleton_iff]
        omega
      rw [hrange,Set.image_pair]
      rfl
    rw [hpair,Set.encard_pair (by decide)]
    rfl
  | uuid =>
    rw [randValue_uuid_results,uuidText_injOn.encard_image]
    simp only [Set.encard_prod,fields_encard]
    rfl

end Leaf

/-- Whole texts can be told apart after they were joined. -/
theorem join_inj {items items' : List Text} (hlength : items.length = items'.length)
    (h : ∀ t ∈ items, Whole t) (h' : ∀ t ∈ items', Whole t) (hjoin : join items = join items') :
    items = items' := by
  cases items with
  | nil => exact (List.eq_nil_of_length_eq_zero hlength.symm).symm
  | cons t items =>
    have hne : items' ≠ [] := by
      rintro rfl
      exact absurd hlength (by simp)
    have hpieces := pieces_join h (List.cons_ne_nil t items)
    rw [hjoin,pieces_join h' hne] at hpieces
    exact (Option.some.inj hpieces).symm

theorem join_pair_inj {a b a' b' : Text} (ha : Whole a) (hb : Whole b) (ha' : Whole a')
    (hb' : Whole b') (hjoin : join [a,b] = join [a',b']) : a = a' ∧ b = b' := by
  have hpair : [a,b] = [a',b'] := join_inj rfl (by simp [ha,hb]) (by simp [ha',hb']) hjoin
  obtain ⟨hfirst,hrest⟩ := List.cons.inj hpair
  exact ⟨hfirst,(List.cons.inj hrest).1⟩

namespace DataType

mutual
/-- How many texts `rand_value` can return. -/
def randCount : DataType → ℕ∞
  | leaf l => l.randCount
  | nullable d => d.randCount
  | lowCardinality d => d.randCount
  | tuple ds => randCounts ds
  | map key value => key.randCount*value.randCount
  | array d => d.randCount

def randCounts : List DataType → ℕ∞
  | [] => 1
  | d :: ds => d.randCount*randCounts ds
end

/-- The lists of texts drawn for the components of a tuple. -/
def drawn (ds : List DataType) : Set (List Text) :=
  Results fun R => (randValues ds : Rand R (List Text))

theorem randTexts_leaf (l : Leaf) :
    (leaf l).randTexts = Results fun R => (l.randValue : Rand R Text) := by
  simp only [randTexts,randValue]
  rfl

theorem randTexts_nullable (d : DataType) : (nullable d).randTexts = d.randTexts := by
  simp only [randTexts,randValue]

theorem randTexts_lowCardinality (d : DataType) : (lowCardinality d).randTexts = d.randTexts := by
  simp only [randTexts,randValue]

theorem randTexts_tuple (ds : List DataType) :
    (tuple ds).randTexts = (fun items => call "tuple".toList (join items)) '' drawn ds := by
  rw [drawn,← Results.map (replays_randValues ds)]
  simp only [randTexts,randValue]
  rfl

theorem randTexts_map (key value : DataType) :
    (map key value).randTexts = (fun p : Text × Text => call "map".toList (join [p.1,p.2])) ''
      (key.randTexts ×ˢ value.randTexts) := by
  have hpair : (map key value).randTexts = {t | ∃ k ∈ key.randTexts, t ∈
      (fun v => call "map".toList (k ++ ",".toList ++ v)) '' value.randTexts} := by
    have hbind := Results.bind key.replays_randValue
      (f := fun R k => (do
        let v ← value.randValue
        return call "map".toList (k ++ ",".toList ++ v) : Rand R Text))
      fun k => value.replays_randValue.bind fun v => .pure _
    simp only [Results.map value.replays_randValue] at hbind
    simp only [randTexts,randValue]
    exact hbind
  have hjoin : ∀ k v : Text, join [k,v] = k ++ ",".toList ++ v := by
    intro k v
    rw [join,List.intercalate_cons_cons,List.intercalate_singleton]
    rfl
  rw [hpair]
  ext t
  constructor
  · rintro ⟨k,hk,v,hv,rfl⟩
    exact ⟨(k,v),⟨hk,hv⟩,congrArg (call _) (hjoin k v)⟩
  · rintro ⟨⟨k,v⟩,⟨hk,hv⟩,rfl⟩
    exact ⟨k,hk,v,hv,congrArg (call _) (hjoin k v).symm⟩

theorem randTexts_array (d : DataType) :
    (array d).randTexts = (fun t => '[' :: (t ++ [']'])) '' d.randTexts := by
  have hmap := Results.map d.replays_randValue fun v => '[' :: (v ++ [']'])
  simp only [randTexts,randValue]
  exact hmap

theorem drawn_nil : drawn [] = {[]} := by
  rw [← Results.pure []]
  simp only [drawn,randValues]

theorem drawn_cons (d : DataType) (ds : List DataType) :
    drawn (d :: ds) = (fun p : Text × List Text => p.1 :: p.2) '' (d.randTexts ×ˢ drawn ds) := by
  have hpair : drawn (d :: ds) = {items | ∃ t ∈ d.randTexts, items ∈ (fun ts => t :: ts) '' drawn ds} := by
    have hbind := Results.bind d.replays_randValue
      (f := fun R v => (do
        let vs ← randValues ds
        return v :: vs : Rand R (List Text)))
      fun v => (replays_randValues ds).bind fun vs => .pure _
    simp only [Results.map (replays_randValues ds)] at hbind
    simp only [drawn,randValues]
    exact hbind
  rw [hpair]
  ext items
  constructor
  · rintro ⟨t,ht,ts,hts,rfl⟩
    exact ⟨(t,ts),⟨ht,hts⟩,rfl⟩
  · rintro ⟨⟨t,ts⟩,⟨ht,hts⟩,rfl⟩
    exact ⟨t,ht,ts,hts,rfl⟩

theorem randTexts_whole {d : DataType} {t : Text} (h : t ∈ d.randTexts) : Whole t := by
  obtain ⟨R,s,s',hs⟩ := h
  exact d.randValue_yields.holds s t s' hs

theorem drawn_length {ds : List DataType} {items : List Text} (h : items ∈ drawn ds) :
    items.length = ds.length := by
  induction ds generalizing items with
  | nil =>
    rw [drawn_nil] at h
    rw [h]
    rfl
  | cons d ds ih =>
    rw [drawn_cons] at h
    obtain ⟨⟨t,ts⟩,⟨-,hts⟩,rfl⟩ := h
    exact congrArg (·+1) (ih hts)

theorem drawn_whole {ds : List DataType} {items : List Text} (h : items ∈ drawn ds) :
    ∀ t ∈ items, Whole t := by
  obtain ⟨R,s,s',hs⟩ := h
  exact (randValues_yields ds).holds s items s' hs

theorem tuple_injOn (ds : List DataType) :
    Set.InjOn (fun items => call "tuple".toList (join items)) (drawn ds) := by
  intro items hitems items' hitems' h
  exact join_inj ((drawn_length hitems).trans (drawn_length hitems').symm) (drawn_whole hitems)
    (drawn_whole hitems') (call_injective _ h)

theorem map_injOn (key value : DataType) :
    Set.InjOn (fun p : Text × Text => call "map".toList (join [p.1,p.2]))
      (key.randTexts ×ˢ value.randTexts) := by
  rintro ⟨k,v⟩ ⟨hk,hv⟩ ⟨k',v'⟩ ⟨hk',hv'⟩ h
  obtain ⟨rfl,rfl⟩ := join_pair_inj (randTexts_whole hk) (randTexts_whole hv)
    (randTexts_whole hk') (randTexts_whole hv') (call_injective _ h)
  rfl

theorem brackets_injective : Function.Injective fun t : Text => '[' :: (t ++ [']']) := by
  intro a b h
  exact List.append_cancel_right (List.cons.inj h).2

mutual
theorem randTexts_encard : ∀ d : DataType, d.randTexts.encard = d.randCount
  | leaf l => by rw [randTexts_leaf,l.randValue_encard,randCount]
  | nullable d => by rw [randTexts_nullable,randTexts_encard d,randCount]
  | lowCardinality d => by rw [randTexts_lowCardinality,randTexts_encard d,randCount]
  | tuple ds => by
    rw [randTexts_tuple,(tuple_injOn ds).encard_image,drawn_encard ds,randCount]
  | map key value => by
    rw [randTexts_map,(map_injOn key value).encard_image,Set.encard_prod,randTexts_encard key,
      randTexts_encard value,randCount]
  | array d => by
    rw [randTexts_array,brackets_injective.encard_image,randTexts_encard d,randCount]

theorem drawn_encard : ∀ ds : List DataType, (drawn ds).encard = randCounts ds
  | [] => by rw [drawn_nil,Set.encard_singleton,randCounts]
  | d :: ds => by
    have hinjective : Function.Injective fun p : Text × List Text => p.1 :: p.2 := by
      rintro ⟨t,ts⟩ ⟨t',ts'⟩ h
      obtain ⟨rfl,rfl⟩ := List.cons.inj h
      rfl
    rw [drawn_cons,hinjective.encard_image,Set.encard_prod,randTexts_encard d,drawn_encard ds,
      randCounts]
end

end DataType

end ClickHouseRegression.Helpers
