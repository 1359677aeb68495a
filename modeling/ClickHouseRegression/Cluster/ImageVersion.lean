import ClickHouseRegression.Helpers.Version

/-! The version that `Cluster.__init__` reads off a `docker://` reference when none was given: the
leading dots and digits of what follows the last colon. -/
namespace ClickHouseRegression.Cluster
open Helpers

/-- `t.rsplit(sep, 1)[-1]`. -/
def afterLast (sep : Char) (t : Text) : Text := (t.reverse.takeWhile (· ≠ sep)).reverse

/-- `c in ".0123456789"`. -/
def versionChar (c : Char) : Bool := c = '.' ∨ c.isDigit = true

/-- The loop over the characters, up to the first other one. -/
def parseVersion : Text → Text → Text
  | parsed,[] => parsed
  | parsed,c :: rest => if versionChar c then parseVersion (parsed ++ [c]) rest else parsed

/-- The variable `clickhouse_version` of the context after the path of the binary was looked at. -/
def initClickhouseVersion (clickhouseVersion : Option Text) (binaryPath : Text) : Option Text :=
  if "http://".toList.isPrefixOf binaryPath || "https://".toList.isPrefixOf binaryPath then
    clickhouseVersion
  else if "docker://".toList.isPrefixOf binaryPath then
    if clickhouseVersion = none then
      let parsed := parseVersion [] (afterLast ':' binaryPath)
      if parsed = [] then clickhouseVersion
      else if ".".toList.isPrefixOf parsed || ".".toList.isSuffixOf parsed then clickhouseVersion
      else some parsed
    else clickhouseVersion
  else clickhouseVersion

/-- `host[:port]`. -/
structure Registry where
  host : Text
  port : Option Number
  plain : ':' ∉ host ∧ '/' ∉ host

def Registry.text (g : Registry) : Text :=
  g.host ++ match g.port with
    | none => []
    | some port => ':' :: port.digits

/-- `docker://[host[:port]/]path[:tag]`. -/
structure Reference where
  registry : Option Registry
  path : Text
  tag : Option Text
  pathPlain : ':' ∉ path
  tagPlain : ∀ t ∈ tag, ':' ∉ t ∧ '/' ∉ t

def Registry.prefixText : Option Registry → Text
  | none => []
  | some g => g.text ++ ['/']

def tagText : Option Text → Text
  | none => []
  | some t => ':' :: t

def Reference.text (r : Reference) : Text :=
  "docker://".toList ++ Registry.prefixText r.registry ++ r.path ++ tagText r.tag

theorem Reference.text_eq (r : Reference) :
    r.text = "docker".toList ++
      ':' :: '/' :: '/' :: (Registry.prefixText r.registry ++ (r.path ++ tagText r.tag)) := by
  show "docker://".toList ++ Registry.prefixText r.registry ++ r.path ++ tagText r.tag = _
  simp

/-- Decimal numbers separated by dots. -/
def IsVersion (t : Text) : Prop := ∃ ns : List Number, ns ≠ [] ∧ t = dotted (ns.map (·.digits))

/-- The longest prefix of `t` that is a version. -/
def LongestVersion (t v : Text) : Prop :=
  v <+: t ∧ IsVersion v ∧ ∀ u, u <+: t → IsVersion u → u.length ≤ v.length

/-- The version is set exactly to what the tag says. -/
def Reference.Reads (r : Reference) : Prop :=
  ∀ v, initClickhouseVersion none r.text = some v ↔ ∃ t ∈ r.tag, LongestVersion t v

/-- The leading dots and digits of a tag. -/
def leading (t : Text) : Text := t.takeWhile versionChar

/-- The leading dots and digits begin with a dot, or they neither end with one nor hold two in
a row. -/
def ReadableTag (t : Text) : Prop :=
  ['.'] <+: leading t ∨ (¬ ['.'] <:+ leading t ∧ ¬ ['.','.'] <:+: leading t)

def Reference.Readable (r : Reference) : Prop :=
  match r.tag with
  | some t => ReadableTag t
  | none => ∀ g ∈ r.registry, g.port = none

theorem afterLast_append {sep : Char} (a : Text) {b : Text} (h : sep ∉ b) :
    afterLast sep (a ++ sep :: b) = b := by
  have hb : ∀ c ∈ b.reverse, decide (c ≠ sep) = true := by
    intro c hc
    refine decide_eq_true ?_
    rintro rfl
    exact h (List.mem_reverse.1 hc)
  rw [afterLast,List.reverse_append,List.reverse_cons,List.append_assoc,
    List.takeWhile_append_of_pos hb]
  simp

theorem parseVersion_eq (parsed t : Text) : parseVersion parsed t = parsed ++ leading t := by
  induction t generalizing parsed with
  | nil => simp [parseVersion,leading]
  | cons c rest ih =>
    cases hc : versionChar c with
    | true => simp [parseVersion,leading,hc,ih]
    | false => simp [parseVersion,leading,hc]

/-- What is set, in terms of the text after the last colon. -/
theorem initClickhouseVersion_docker {t : Text} (h : "docker://".toList.isPrefixOf t = true) (v : Text) :
    initClickhouseVersion none t = some v ↔
      v = leading (afterLast ':' t) ∧ v ≠ [] ∧ ¬ ['.'] <+: v ∧ ¬ ['.'] <:+ v := by
  obtain ⟨rest,rfl⟩ := List.isPrefixOf_iff_prefix.1 h
  have hnot : ("http://".toList.isPrefixOf ("docker://".toList ++ rest) ||
      "https://".toList.isPrefixOf ("docker://".toList ++ rest)) = false := by
    simp [List.isPrefixOf]
  rw [initClickhouseVersion,hnot,if_neg Bool.false_ne_true,if_pos h,if_pos rfl,parseVersion_eq,
    List.nil_append]
  generalize leading (afterLast ':' ("docker://".toList ++ rest)) = lead
  have hdot : ".".toList = ['.'] := rfl
  by_cases hnil : lead = []
  · rw [if_pos hnil]
    constructor
    · intro hv
      cases hv
    · rintro ⟨rfl,hne,-⟩
      exact absurd hnil hne
  · rw [if_neg hnil,hdot]
    by_cases hdots : (['.'].isPrefixOf lead || ['.'].isSuffixOf lead) = true
    · rw [if_pos hdots]
      constructor
      · intro hv
        cases hv
      · rintro ⟨rfl,-,hpre,hsuf⟩
        rw [Bool.or_eq_true,List.isPrefixOf_iff_prefix,List.isSuffixOf_iff_suffix] at hdots
        exact absurd hdots (not_or.2 ⟨hpre,hsuf⟩)
    · rw [if_neg hdots]
      rw [Bool.or_eq_true,List.isPrefixOf_iff_prefix,List.isSuffixOf_iff_suffix,not_or] at hdots
      constructor
      · intro hv
        obtain rfl := Option.some.inj hv
        exact ⟨rfl,hnil,hdots⟩
      · rintro ⟨rfl,-⟩
        rfl

/-- A reader of versions that knows whether a digit came last. -/
def readsVersion : Bool → Text → Bool
  | afterDigit,[] => afterDigit
  | afterDigit,c :: rest =>
    if c = '.' then afterDigit && readsVersion false rest else c.isDigit && readsVersion true rest

theorem readsVersion_digits {d : Text} (hne : d ≠ []) (hd : ∀ c ∈ d, c.isDigit = true) (b : Bool)
    (t : Text) : readsVersion b (d ++ t) = readsVersion true t := by
  induction d generalizing b with
  | nil => exact absurd rfl hne
  | cons c d ih =>
    have hc := hd c List.mem_cons_self
    have hdot : c ≠ '.' := by
      rintro rfl
      exact absurd hc (by decide)
    rw [List.cons_append,readsVersion,if_neg hdot,hc,Bool.true_and]
    cases d with
    | nil => rfl
    | cons c' d => exact ih (by simp) (fun x hx => hd x (List.mem_cons_of_mem c hx)) true

theorem dotted_cons_cons (n m : Number) (ns : List Number) :
    dotted ((n :: m :: ns).map (·.digits)) = n.digits ++ '.' :: dotted ((m :: ns).map (·.digits)) := by
  simp [dotted,List.intercalate_cons_cons]

theorem readsVersion_dotted {ns : List Number} (hne : ns ≠ []) :
    readsVersion false (dotted (ns.map (·.digits))) = true := by
  induction ns with
  | nil => exact absurd rfl hne
  | cons n ns ih =>
    cases ns with
    | nil =>
      have hone : dotted ([n].map (·.digits)) = n.digits ++ [] := by simp [dotted]
      rw [hone,readsVersion_digits n.nonempty n.decimal]
      rfl
    | cons m ns =>
      rw [dotted_cons_cons,readsVersion_digits n.nonempty n.decimal,readsVersion,if_pos rfl,
        Bool.true_and]
      exact ih (by simp)

/-- What has been read of a number goes on to a version, and so does a text read from its start. -/
theorem isVersion_of_reads (t : Text) :
    (readsVersion true t = true → ∀ n : Number, IsVersion (n.digits ++ t)) ∧
      (readsVersion false t = true → IsVersion t) := by
  induction t with
  | nil => exact ⟨fun _ n => ⟨[n],by simp,by simp [dotted]⟩,fun h => Bool.noConfusion h⟩
  | cons c rest ih =>
    by_cases hdot : c = '.'
    · subst hdot
      refine ⟨fun h n => ?_,fun h => Bool.noConfusion h⟩
      rw [readsVersion,if_pos rfl,Bool.true_and] at h
      obtain ⟨ns,hne,rfl⟩ := ih.2 h
      obtain ⟨m,ns,rfl⟩ := List.exists_cons_of_ne_nil hne
      exact ⟨n :: m :: ns,by simp,(dotted_cons_cons n m ns).symm⟩
    · have hread : ∀ b, readsVersion b (c :: rest) = true →
          c.isDigit = true ∧ readsVersion true rest = true := by
        intro b h
        rwa [readsVersion,if_neg hdot,Bool.and_eq_true] at h
      constructor
      · intro h n
        obtain ⟨hc,hrest⟩ := hread true h
        have hlonger : IsVersion ((n.digits ++ [c]) ++ rest) :=
          ih.1 hrest ⟨n.digits ++ [c],by simp,by
            intro x hx
            rcases List.mem_append.1 hx with hx | hx
            · exact n.decimal x hx
            · rwa [List.mem_singleton.1 hx]⟩
        rwa [List.append_assoc] at hlonger
      · intro h
        obtain ⟨hc,hrest⟩ := hread false h
        exact ih.1 hrest ⟨[c],by simp,by simpa using hc⟩

theorem isVersion_iff (t : Text) : IsVersion t ↔ readsVersion false t = true := by
  refine ⟨?_,(isVersion_of_reads t).2⟩
  rintro ⟨ns,hne,rfl⟩
  exact readsVersion_dotted hne

theorem readsVersion_iff {t : Text} (h : ∀ c ∈ t, versionChar c = true) :
    (readsVersion true t = true ↔ ¬ ['.'] <:+ t ∧ ¬ ['.','.'] <:+: t) ∧
      (readsVersion false t = true ↔
        t ≠ [] ∧ ¬ ['.'] <+: t ∧ ¬ ['.'] <:+ t ∧ ¬ ['.','.'] <:+: t) := by
  induction t with
  | nil => simp [readsVersion]
  | cons c rest ih =>
    obtain ⟨htrue,hfalse⟩ := ih fun x hx => h x (List.mem_cons_of_mem c hx)
    by_cases hdot : c = '.'
    · subst hdot
      simp only [readsVersion,if_true,Bool.true_and,Bool.false_and,hfalse,List.suffix_cons_iff,
        List.infix_cons_iff,List.cons_prefix_cons]
      cases rest with
      | nil => simp
      | cons c' rest => simp [and_left_comm]
    · have hc : c.isDigit = true := by
        have := h c List.mem_cons_self
        simpa [versionChar,hdot] using this
      simp [readsVersion,hdot,Ne.symm hdot,hc,htrue,List.suffix_cons_iff,List.infix_cons_iff,
        List.cons_prefix_cons]

theorem IsVersion.chars {t : Text} (h : IsVersion t) : ∀ c ∈ t, versionChar c = true := by
  obtain ⟨ns,-,rfl⟩ := h
  intro c hc
  rcases mem_dotted hc with rfl | ⟨u,hu,hc⟩
  · rfl
  · obtain ⟨n,-,rfl⟩ := List.mem_map.1 hu
    exact decide_eq_true (.inr (n.decimal c hc))

theorem leading_chars (t : Text) : ∀ c ∈ leading t, versionChar c = true := fun _ =>
  List.mem_takeWhile_imp

theorem leading_isVersion_iff (t : Text) :
    IsVersion (leading t) ↔ leading t ≠ [] ∧ ¬ ['.'] <+: leading t ∧ ¬ ['.'] <:+ leading t ∧
      ¬ ['.','.'] <:+: leading t :=
  (isVersion_iff _).trans (readsVersion_iff (leading_chars t)).2

/-- A version at the start of a text ends before the first other character. -/
theorem IsVersion.prefix_leading {t u : Text} (h : IsVersion u) (hu : u <+: t) : u <+: leading t := by
  obtain ⟨rest,rfl⟩ := hu
  rw [leading,List.takeWhile_append_of_pos h.chars]
  exact List.prefix_append _ _

theorem IsVersion.not_dot {u : Text} (h : IsVersion u) : u ≠ [] ∧ ¬ ['.'] <+: u := by
  have hread := (readsVersion_iff h.chars).2.1 ((isVersion_iff u).1 h)
  exact ⟨hread.1,hread.2.1⟩

/-- A text that starts with a version has a longest one. -/
theorem exists_longestVersion {t u : Text} (hu : u <+: t) (h : IsVersion u) :
    ∃ v, LongestVersion t v := by
  classical
  let lengths := (Finset.range (t.length+1)).filter fun n => IsVersion (t.take n)
  have hmem : ∀ w : Text, w <+: t → IsVersion w → w.length ∈ lengths := by
    intro w hw hversion
    refine Finset.mem_filter.2 ⟨Finset.mem_range.2 (Nat.lt_succ_of_le hw.length_le),?_⟩
    rwa [← List.prefix_iff_eq_take.1 hw]
  obtain ⟨n,hn,hmax⟩ := lengths.exists_max_image id ⟨_,hmem u hu h⟩
  obtain ⟨hrange,hversion⟩ := Finset.mem_filter.1 hn
  refine ⟨t.take n,List.take_prefix n t,hversion,fun w hw hw' => ?_⟩
  rw [List.length_take,Nat.min_eq_left (Nat.lt_succ_iff.1 (Finset.mem_range.1 hrange))]
  exact hmax _ (hmem w hw hw')

theorem LongestVersion.unique {t v w : Text} (hv : LongestVersion t v) (hw : LongestVersion t w) :
    v = w :=
  List.prefix_iff_eq_take.1 hv.1 |>.trans <| by
    rw [Nat.le_antisymm (hw.2.2 v hv.1 hv.2.1) (hv.2.2 w hw.1 hw.2.1)]
    exact (List.prefix_iff_eq_take.1 hw.1).symm

/-- If all the leading dots and digits are a version, they are the longest one. -/
theorem longestVersion_leading {t : Text} (h : IsVersion (leading t)) : LongestVersion t (leading t) :=
  ⟨List.takeWhile_prefix _,h,fun _ hu hu' => (hu'.prefix_leading hu).length_le⟩

/-- Setting the leading dots and digits when neither end is a dot is right exactly for the
readable tags. -/
theorem readableTag_iff (t : Text) :
    (∀ v, (v = leading t ∧ v ≠ [] ∧ ¬ ['.'] <+: v ∧ ¬ ['.'] <:+ v) ↔ LongestVersion t v) ↔
      ReadableTag t := by
  have hversion := leading_isVersion_iff t
  constructor
  · intro h
    by_contra hnot
    obtain ⟨hpre,hends⟩ := not_or.1 hnot
    have hne : leading t ≠ [] := by
      intro hnil
      rw [hnil] at hends
      exact hends ⟨by simp,by simp⟩
    by_cases hsuf : ['.'] <:+ leading t
    · -- a digit comes first, so there is a longest version, and nothing is set
      obtain ⟨c,rest,hlead⟩ := List.exists_cons_of_ne_nil hne
      have hdot : c ≠ '.' := by
        rintro rfl
        exact hpre (hlead ▸ ⟨rest,rfl⟩)
      have hdigit : c.isDigit = true := by
        have hchar := leading_chars t c (hlead ▸ List.mem_cons_self)
        simpa [versionChar,hdot] using hchar
      have hhead : [c] <+: leading t := hlead ▸ ⟨rest,rfl⟩
      have hone : [c] <+: t := hhead.trans (List.takeWhile_prefix versionChar)
      obtain ⟨v,hv⟩ := exists_longestVersion hone
        ((isVersion_iff [c]).2 (by simp [readsVersion,hdot,hdigit]))
      obtain ⟨rfl,-,-,hend⟩ := (h v).2 hv
      exact hend hsuf
    · have hset := (h (leading t)).1 ⟨rfl,hne,hpre,hsuf⟩
      exact hends ⟨hsuf,(hversion.1 hset.2.1).2.2.2⟩
  · intro h v
    constructor
    · rintro ⟨rfl,hne,hpre,hsuf⟩
      obtain hdot | ⟨-,hdots⟩ := h
      · exact absurd hdot hpre
      · exact longestVersion_leading (hversion.2 ⟨hne,hpre,hsuf,hdots⟩)
    · intro hv
      have hlead := hv.2.1.prefix_leading hv.1
      have hne : leading t ≠ [] := by
        intro hnil
        rw [hnil,List.prefix_nil] at hlead
        exact hv.2.1.not_dot.1 hlead
      have hpre : ¬ ['.'] <+: leading t := by
        intro hpre
        have hone : (['.'] : Text).length ≤ v.length := by
          rw [List.length_singleton]
          exact List.length_pos_iff.2 hv.2.1.not_dot.1
        exact hv.2.1.not_dot.2 (List.prefix_of_prefix_length_le hpre hlead hone)
      obtain hdot | ⟨hsuf,hdots⟩ := h
      · exact absurd hdot hpre
      · have hv' := hv.unique (longestVersion_leading (hversion.2 ⟨hne,hpre,hsuf,hdots⟩))
        rw [hv']
        exact ⟨rfl,hne,hpre,hsuf⟩

theorem Reference.text_docker (r : Reference) : "docker://".toList.isPrefixOf r.text = true := by
  rw [r.text_eq]
  simp [List.isPrefixOf]

theorem afterLast_text_tag {r : Reference} {t : Text} (h : r.tag = some t) :
    afterLast ':' r.text = t := by
  have htext : r.text = ("docker".toList ++
      ':' :: '/' :: '/' :: (Registry.prefixText r.registry ++ r.path)) ++ ':' :: t := by
    rw [r.text_eq,h,tagText]
    simp only [List.append_assoc,List.cons_append]
  rw [htext]
  exact afterLast_append _ (r.tagPlain t h).1

theorem afterLast_text_port {r : Reference} {g : Registry} {port : Number} (htag : r.tag = none)
    (hregistry : r.registry = some g) (hport : g.port = some port) :
    afterLast ':' r.text = port.digits ++ '/' :: r.path := by
  have htext : r.text = ("docker".toList ++ ':' :: '/' :: '/' :: g.host) ++
      ':' :: (port.digits ++ '/' :: r.path) := by
    rw [r.text_eq,htag,hregistry,Registry.prefixText,Registry.text,hport,tagText]
    simp only [List.append_assoc,List.cons_append,List.nil_append,List.append_nil]
  rw [htext]
  refine afterLast_append _ ?_
  rw [List.mem_append,List.mem_cons]
  rintro (h | h | h)
  · exact absurd (port.decimal ':' h) (by decide)
  · exact absurd h (by decide)
  · exact r.pathPlain h

theorem colon_not_mem_prefixText {o : Option Registry} (h : ∀ g ∈ o, g.port = none) :
    ':' ∉ Registry.prefixText o := by
  cases o with
  | none => simp [Registry.prefixText]
  | some g => simpa [Registry.prefixText,Registry.text,h g rfl] using g.plain.1

theorem afterLast_text_plain {r : Reference} (htag : r.tag = none)
    (hport : ∀ g ∈ r.registry, g.port = none) : ∃ rest, afterLast ':' r.text = '/' :: rest := by
  refine ⟨'/' :: (Registry.prefixText r.registry ++ r.path),?_⟩
  rw [r.text_eq,htag,tagText,List.append_nil]
  refine afterLast_append _ ?_
  simpa using ⟨colon_not_mem_prefixText hport,r.pathPlain⟩

/-- The version is what the tag says exactly for the readable references. -/
theorem clickhouseVersion_reads_iff (r : Reference) : r.Reads ↔ r.Readable := by
  unfold Reference.Reads Reference.Readable
  simp only [initClickhouseVersion_docker r.text_docker]
  cases htag : r.tag with
  | some t =>
    rw [afterLast_text_tag htag]
    simpa using readableTag_iff t
  | none =>
    simp only [Option.mem_def,reduceCtorEq,false_and,exists_false,iff_false]
    constructor
    · intro h g hg
      by_contra hport
      obtain ⟨port,hport⟩ := Option.ne_none_iff_exists'.1 hport
      have hlead : leading (port.digits ++ '/' :: r.path) = port.digits := by
        have hdigits : ∀ c ∈ port.digits, versionChar c = true := fun c hc =>
          decide_eq_true (.inr (port.decimal c hc))
        rw [leading,List.takeWhile_append_of_pos hdigits]
        simp [versionChar]
      refine h port.digits ⟨?_,port.nonempty,?_,?_⟩
      · rw [afterLast_text_port htag hg hport,hlead]
      · exact fun hdot => port.dotless (hdot.subset (by simp))
      · exact fun hdot => port.dotless (hdot.subset (by simp))
    · rintro h v ⟨rfl,hne,-⟩
      obtain ⟨rest,hrest⟩ := afterLast_text_plain htag h
      exact hne (by rw [hrest]; rfl)

/-- `docker://altinity/clickhouse-server:22.3.8.40.altinitystable`. -/
def altinityImage : Reference where
  registry := none
  path := "altinity/clickhouse-server".toList
  tag := some "22.3.8.40.altinitystable".toList
  pathPlain := by decide +kernel
  tagPlain := by
    intro t h
    rw [← Option.some.inj h]
    decide +kernel

/-- `docker://registry:5000/clickhouse-server`. -/
def registryImage : Reference where
  registry := some ⟨"registry".toList,some (.ofNat 5000),by decide +kernel⟩
  path := "clickhouse-server".toList
  tag := none
  pathPlain := by decide +kernel
  tagPlain := by
    intro t h
    cases h

/-- A dot before the suffix leaves the version unset, and the port of a registry is taken for one. -/
theorem clickhouseVersion_misread :
    ¬ altinityImage.Reads ∧ initClickhouseVersion none altinityImage.text = none ∧
      ¬ registryImage.Reads ∧ initClickhouseVersion none registryImage.text = some "5000".toList := by
  have hport : initClickhouseVersion none registryImage.text = some "5000".toList := by rfl
  have hunset : initClickhouseVersion none altinityImage.text = none := by rfl
  refine ⟨fun h => ?_,hunset,fun h => ?_,hport⟩
  · have hprefix : ['2'] <+: "22.3.8.40.altinitystable".toList := by decide +kernel
    obtain ⟨v,hv⟩ := exists_longestVersion hprefix ((isVersion_iff ['2']).2 (by rfl))
    have hset := (h v).2 ⟨_,rfl,hv⟩
    rw [hunset] at hset
    cases hset
  · obtain ⟨t,ht,-⟩ := (h _).1 hport
    cases ht

end ClickHouseRegression.Cluster
