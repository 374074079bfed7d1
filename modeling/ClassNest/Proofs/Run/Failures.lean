import ClassNest.Proofs.Run.BreadthFirst
import ClassNest.Proofs.Run.Room

/-!
# The failures of an outcome

Which units an outcome reports, and in which order. The units that cannot be read come first, then the
classes with malformed exception tables, then the roots whose trees failed, and last the classes
without a tree that declare a bad call site.

Whether a tree fails depends on what it holds, and that on the trees before it that stand. The loop
over the roots is therefore followed twice: once for the roots that fail (`failed_iff_reaches`), once for
the names that are given up with them (`abandoned_iff_meets`), both in terms of what roots reach. In the end
"reached by an earlier root that stands" is the same as "in an earlier tree of the forest"
(`inTree_iff_reaches`).

A tree can also fail because the arena is full. Such a failure is told by its cause, and how far the tree
got by then is not said here: which names are given up is said of runs without it (`Outcome.InRoom`).
-/
namespace ClassNest

/-! ## Trees of a settled forest -/

/-- The class `a` stands in the tree that the class `root` heads. -/
def Forest.InTree (f : Forest) (root a : String) : Prop := ∃ i, f.find? root = some i ∧ f.rootOf? a = some i

section
variable {g : Ground} {s : Growth}

theorem Forest.Shaped.reaches_top {f : Forest} (h : f.Shaped g) {i : Nat} {a : String}
    (ha : f.className? i = some a) : ∃ c, f.className? (f.top i) = some c ∧ g.Reaches c a := by
  induction i using Nat.strongRecOn generalizing a with
  | ind i ih =>
    cases hp : f.parent? i with
    | none => exact ⟨a, by rw [Forest.top_of_root hp]; exact ha, .self⟩
    | some p =>
      obtain ⟨e, he, hb⟩ := h.breadth.enclosed ha hp
      obtain ⟨hskip, r, d, _, hown, _⟩ := h.labelled.inner ha hp
      obtain ⟨c, hc, hr⟩ := ih p (h.linked.parent_lt hp) he
      refine ⟨c, by rw [Forest.top_of_parent h.linked hp]; exact hc, .step hr hb hskip ?_⟩
      rw [Registry.isOwn, hown]
      rfl

/-- What a root reaches stands in its tree or in an earlier one. -/
theorem Growth.Settled.top_le_of_reaches (h : s.Settled g) (hg : g.Sound) {q a : String} (hr : g.Reaches q a)
    {i : Nat} (hi : s.forest.className? i = some q) :
    ∀ {j : Nat}, s.forest.className? j = some a → s.forest.top j ≤ s.forest.top i := by
  induction hr with
  | self =>
    intro j hj
    exact Nat.le_of_eq (congrArg _ (h.shaped.named.eq_of_className? hj hi))
  | step he hb _ _ ih =>
    intro j hj
    obtain ⟨k, hk⟩ := h.has_of_reaches hg he ⟨i, hi⟩
    obtain ⟨p, hp, hpk⟩ := h.shaped.parent_le hg hk hj hb
    have hlt := Nat.lt_trans (h.shaped.linked.parent_lt hp) (Forest.lt_size_of_className? hj)
    rw [Forest.top_of_parent h.shaped.linked hp]
    exact Nat.le_trans (h.shaped.top_mono hlt hpk) (ih hk)

variable {failed : List String} {before : List ClassFile} {a : String}

/-- Up to some point, what the roots reach that stand is what the trees hold. -/
theorem Growth.Settled.inTree_iff_reaches (h : s.Settled g) (hg : g.Sound)
    (hroots : s.forest.rootNames = ((g.rootClasses.map (·.name)).filter fun b => !failed.contains b).map some)
    (hpre : before <+: g.rootClasses) :
    (∃ q ∈ before, s.forest.InTree q.name a) ↔ ∃ q ∈ before, q.name ∉ failed ∧ g.Reaches q.name a := by
  have hnamed := h.shaped.named
  constructor
  · rintro ⟨q, hq, i, hi, hroot⟩
    obtain ⟨j, hj, htop⟩ := Option.map_eq_some_iff.mp hroot
    have hja := hnamed.find?_iff.mp hj
    obtain ⟨c, hc, hr⟩ := h.shaped.reaches_top hja
    have hci : s.forest.className? i = some c := htop ▸ hc
    have hcq : c = q.name := Option.some.inj (hci.symm.trans (hnamed.find?_iff.mp hi))
    subst hcq
    refine ⟨q, hq, ?_, hr⟩
    have hmem : some q.name ∈ s.forest.rootNames :=
      List.mem_map.mpr ⟨_, (h.shaped.top_mem_roots (Forest.lt_size_of_className? hja)).1, hc⟩
    rw [hroots] at hmem
    obtain ⟨b, hb, hbq⟩ := List.mem_map.mp hmem
    cases hbq
    simpa using (List.mem_filter.mp hb).2
  · rintro ⟨q, hq, hstands, hr⟩
    -- the roots in front are those of `before` that stand, and the tree with `a` is not behind that of `q`
    obtain ⟨after, hsplit⟩ := hpre
    rw [← hsplit, List.map_append, List.filter_append, List.map_append] at hroots
    obtain ⟨first, rest, hfr, hfirst, _⟩ := List.map_eq_append_iff.mp hroots
    have hqf : some q.name ∈ first.map s.forest.className? := by
      rw [hfirst]
      refine List.mem_map.mpr ⟨q.name, List.mem_filter.mpr ⟨List.mem_map.mpr ⟨q, hq, rfl⟩, ?_⟩, rfl⟩
      simpa using hstands
    obtain ⟨i, hi, hiq⟩ := List.mem_map.mp hqf
    have hir : i ∈ s.forest.roots := by rw [hfr]; exact List.mem_append_left _ hi
    obtain ⟨j, hj⟩ := h.has_of_reaches hg hr ⟨i, hiq⟩
    have hle := h.top_le_of_reaches hg hr hiq hj
    rw [Forest.top_of_root (h.shaped.rooted.mem_roots.mp hir).2] at hle
    have htop : s.forest.top j ∈ first := by
      have hm := (h.shaped.top_mem_roots (Forest.lt_size_of_className? hj)).1
      rw [hfr, List.mem_append] at hm
      refine hm.resolve_right fun hrest => ?_
      have hsorted := h.shaped.rooted.sorted
      rw [hfr, List.pairwise_append] at hsorted
      exact Nat.not_lt_of_le hle (hsorted.2.2 i hi _ hrest)
    have hname : s.forest.className? (s.forest.top j) ∈ first.map s.forest.className? := List.mem_map_of_mem htop
    rw [hfirst] at hname
    obtain ⟨b, hb, hbtop⟩ := List.mem_map.mp hname
    obtain ⟨d, hd, rfl⟩ := List.mem_map.mp (List.mem_filter.mp hb).1
    exact ⟨d, hd, _, hnamed.find?_iff.mpr hbtop.symm, Forest.rootOf?_eq (hnamed.find?_iff.mpr hj)⟩

/-- The tree of `root` in the forest visited the name. -/
def Ground.MetIn (g : Ground) (f : Forest) (root name : String) : Prop :=
  f.InTree root name ∨ ∃ e, f.InTree root e ∧ name ∈ g.below e

theorem Ground.Reaches.meets {root : String} (h : g.Reaches root a) : g.Meets root a := by
  cases h with
  | self => exact .inl rfl
  | step he hb _ _ => exact .inr ⟨_, he, hb⟩

theorem Growth.Settled.metIn_iff_meets (h : s.Settled g) (hg : g.Sound)
    (hroots : s.forest.rootNames = ((g.rootClasses.map (·.name)).filter fun b => !failed.contains b).map some)
    (hpre : before <+: g.rootClasses) :
    (∃ q ∈ before, g.MetIn s.forest q.name a) ↔ ∃ q ∈ before, q.name ∉ failed ∧ g.Meets q.name a := by
  constructor
  · rintro ⟨q, hq, hin | ⟨e, hin, hb⟩⟩
    · obtain ⟨d, hd, hstands, hr⟩ := (h.inTree_iff_reaches hg hroots hpre).mp ⟨q, hq, hin⟩
      exact ⟨d, hd, hstands, hr.meets⟩
    · obtain ⟨d, hd, hstands, hr⟩ := (h.inTree_iff_reaches hg hroots hpre).mp ⟨q, hq, hin⟩
      exact ⟨d, hd, hstands, .inr ⟨e, hr, hb⟩⟩
  · rintro ⟨q, hq, hstands, rfl | ⟨e, hr, hb⟩⟩
    · obtain ⟨d, hd, hin⟩ := (h.inTree_iff_reaches hg hroots hpre).mpr ⟨q, hq, hstands, .self⟩
      exact ⟨d, hd, .inl hin⟩
    · obtain ⟨d, hd, hin⟩ := (h.inTree_iff_reaches hg hroots hpre).mpr ⟨q, hq, hstands, hr⟩
      exact ⟨d, hd, .inr ⟨e, hin, hb⟩⟩

end

/-! ## The loop over the roots -/

namespace Planting
variable {g : Ground} {sites : List CallSite} {s : Planting} {c : ClassFile} {cs : List ClassFile}

/-- A tree fails on a bad call site of one of the classes that it is the first to hold, or on a full arena. -/
theorem Settled.raise_fails_iff (h : s.Settled g sites) (hg : g.Sound) (hc : c ∈ g.rootClasses)
    (hv : c.name ∉ s.growth.visits) :
    (errorOf (s.raise g sites c).answer).isSome = true ↔
      (∃ a, g.Reaches c.name a ∧ ¬ s.growth.forest.Has a ∧ HasBadSite sites a) ∨
        errorOf (s.raise g sites c).answer = some Forest.full := by
  rcases h.errorOf_raise hc hv with he | ⟨hgrow, he⟩
  · rw [he]
    exact iff_of_true rfl (.inr rfl)
  · have hbad : ((s.claims g sites c).findSome? (siteFault? sites)).isSome = true ↔
        ∃ a, g.Reaches c.name a ∧ ¬ s.growth.forest.Has a ∧ HasBadSite sites a := by
      rw [List.findSome?_isSome_iff]
      simp only [siteFault?_isSome]
      constructor
      · rintro ⟨a, ha, hbad⟩
        obtain ⟨hnew, _⟩ := (h.mem_claims hc hv hgrow).mp ha
        obtain ⟨hr, hnot⟩ := (Growth.new_grow_iff h.growth hc hv hgrow hg).mp hnew
        exact ⟨a, hr, hnot, hbad⟩
      · rintro ⟨a, hr, hnot, hbad⟩
        refine ⟨a, (h.mem_claims hc hv hgrow).mpr ⟨?_, ?_, hbad.sitesOf_ne_nil⟩, hbad⟩
        · exact (Growth.new_grow_iff h.growth hc hv hgrow hg).mpr ⟨hr, hnot⟩
        · exact fun hm => hnot (h.mem_claimed.mp hm).1
    rw [he, hbad]
    refine ⟨.inl, fun hor => hor.elim id fun hfull => ?_⟩
    rw [← hbad, hfull]
    rfl

/-- The classes with a node after a tree that stands. -/
theorem Settled.has_plant_iff (h : s.Settled g sites) (hg : g.Sound) (hc : c ∈ g.rootClasses)
    (hv : c.name ∉ s.growth.visits) {names : List String} (hok : (s.raise g sites c).answer = .ok names) {a : String} :
    (s.plant g sites c).growth.forest.Has a ↔ s.growth.forest.Has a ∨ g.Reaches c.name a := by
  obtain ⟨hgrow, _, _⟩ := h.raise_ok hc hv hok
  obtain ⟨att, hl, _⟩ := h.leafed hc hv hgrow
  rw [← Growth.has_grow_iff h.growth hc hv hgrow hg, plant_of_ok hok, raise_of_grown hgrow]
  unfold Forest.Has
  exact exists_congr fun i => by rw [← hl.className?]

/-- The first root and the failures of all: either it stands and they are those of the others, or its
failure is the first of them. -/
theorem foldl_plant_cases (hg : g.Sound) (h : Ready g sites (c :: cs) s) {failed : List Failure}
    (hf : ((c :: cs).foldl (plant g sites) s).failures = s.failures ++ failed) :
    (∃ names, (s.raise g sites c).answer = .ok names ∧ c.name ∉ failed.map (·.unit) ∧
      (cs.foldl (plant g sites) (s.plant g sites c)).failures = (s.plant g sites c).failures ++ failed) ∨
    ∃ fault later, (s.raise g sites c).answer = .error fault ∧
      failed = ⟨c.name, fault.inUnitOr c.name⟩ :: later ∧
      (cs.foldl (plant g sites) (s.plant g sites c)).failures = (s.plant g sites c).failures ++ later := by
  have hc := h.roots c (by simp)
  have hcv := h.fresh c (by simp)
  have hnot : c.name ∉ cs.map (·.name) := (List.nodup_cons.mp h.nodup).1
  obtain ⟨_, later, hlater, hsub, _⟩ := foldl_plant hg cs (h.plant hg)
  rw [List.foldl_cons, hlater] at hf
  cases hl : (s.raise g sites c).answer with
  | ok names =>
    rw [plant_of_ok hl] at hf
    have hfl : later = failed := List.append_cancel_left hf
    subst hfl
    exact .inl ⟨names, rfl, fun hm => hnot (hsub.subset hm), hlater⟩
  | error fault =>
    rw [h.settled.plant_failed hc hcv hl, List.append_assoc] at hf
    exact .inr ⟨fault, later, rfl, (List.append_cancel_left hf).symm, hlater⟩

/-- Earlier roots that stand, with the first root in front: it counts if it stands. -/
theorem exists_standing_cons {P : ClassFile → Prop} {before : List ClassFile} {failed : List String} :
    (∃ q ∈ c :: before, q.name ∉ failed ∧ P q) ↔
      (c.name ∉ failed ∧ P c) ∨ ∃ q ∈ before, q.name ∉ failed ∧ P q := by
  simp only [List.mem_cons, exists_eq_or_imp]

/-- The failure of a first root makes no difference to the others. -/
theorem exists_standing_later {P : ClassFile → Prop} {before : List ClassFile} {later : List String}
    (h : ∀ q ∈ before, q.name ≠ c.name) :
    (∃ q ∈ before, q.name ∉ c.name :: later ∧ P q) ↔ ∃ q ∈ before, q.name ∉ later ∧ P q := by
  refine exists_congr fun q => and_congr_right fun hq => and_congr_left fun _ => ?_
  rw [List.mem_cons, not_or]
  exact and_iff_right (h q hq)

/-- The names of the roots that come later are others. -/
theorem Ready.ne_name (h : Ready g sites (c :: cs) s) {names : List ClassFile} (hpre : names <+: cs) :
    ∀ q ∈ names, q.name ≠ c.name := by
  intro q hq e
  exact (List.nodup_cons.mp h.nodup).1 (List.mem_map.mpr ⟨q, hpre.subset hq, e⟩)

/-- A root fails if it reaches a class with a bad call site that no earlier root reaches which stands, or because the
arena was full. -/
theorem failed_iff_reaches (hg : g.Sound) : ∀ (cs : List ClassFile) {s : Planting} {failed : List Failure},
    Ready g sites cs s → (cs.foldl (plant g sites) s).failures = s.failures ++ failed →
    ∀ {before : List ClassFile} {r : ClassFile}, before ++ [r] <+: cs →
      (r.name ∈ failed.map (·.unit) ↔
        (∃ a, g.Reaches r.name a ∧ ¬ s.growth.forest.Has a ∧
          (¬ ∃ q ∈ before, q.name ∉ failed.map (·.unit) ∧ g.Reaches q.name a) ∧ HasBadSite sites a) ∨
        ∃ f ∈ failed, f.unit = r.name ∧ f.OutOfRoom)
  | [], _, _, _, _, before, r, hpre => by simp at hpre
  | c :: cs, s, failed, h, hf, [], r, hpre => by
    obtain ⟨rfl, _⟩ := List.cons_prefix_cons.mp hpre
    have hfails := h.settled.raise_fails_iff hg (h.roots r (by simp)) (h.fresh r (by simp))
    rcases foldl_plant_cases hg h hf with ⟨names, hl, hnot, _⟩ | ⟨fault, later, hl, rfl, _⟩
    · rw [hl] at hfails
      have hnone : ¬ ∃ a, g.Reaches r.name a ∧ ¬ s.growth.forest.Has a ∧ HasBadSite sites a :=
        fun hbad => absurd (hfails.mpr (.inl hbad)) (by simp)
      refine iff_of_false hnot ?_
      rintro (⟨a, hr, hh, _, hbad⟩ | ⟨f, hfm, hfr, _⟩)
      · exact hnone ⟨a, hr, hh, hbad⟩
      · exact hnot (List.mem_map.mpr ⟨f, hfm, hfr⟩)
    · rw [hl] at hfails
      refine iff_of_true (by simp) ?_
      rcases hfails.mp rfl with ⟨a, hr, hh, hbad⟩ | hfull
      · exact .inl ⟨a, hr, hh, by simp, hbad⟩
      · refine .inr ⟨_, List.mem_cons_self, rfl, ?_⟩
        rw [errorOf_error, Option.some.injEq] at hfull
        rw [hfull]
        rfl
  | c :: cs, s, failed, h, hf, b :: before, r, hpre => by
    obtain ⟨rfl, htail⟩ := List.cons_prefix_cons.mp hpre
    have hc := h.roots b (by simp)
    have hcv := h.fresh b (by simp)
    have hne := h.ne_name htail
    rcases foldl_plant_cases hg h hf with ⟨names, hl, hnot, hrest⟩ | ⟨fault, later, hl, rfl, hrest⟩
    · -- the first root stands: what it reaches has a node from now on
      rw [failed_iff_reaches hg cs (h.plant hg) hrest htail]
      refine or_congr_left (exists_congr fun a => and_congr_right fun _ => ?_)
      rw [h.settled.has_plant_iff hg hc hcv hl, exists_standing_cons, not_or, not_or]
      simp only [hnot, not_false_eq_true, true_and, and_assoc]
    · -- it fails: the forest is what it was
      have he := h.settled.plant_failed hc hcv hl
      have hforest : (s.plant g sites b).growth.forest = s.growth.forest := by rw [he]; rfl
      rw [List.map_cons, List.mem_cons, or_iff_right (hne r (by simp)),
        failed_iff_reaches hg cs (h.plant hg) hrest htail, hforest]
      refine or_congr (exists_congr fun a =>
        and_congr_right fun _ => and_congr_right fun _ => and_congr_left fun _ => ?_) ?_
      · rw [exists_standing_cons, exists_standing_later fun q hq => hne q (by simp [hq])]
        simp
      · simp only [List.mem_cons, exists_eq_or_imp]
        exact (or_iff_right fun hx => hne r (by simp) hx.1.symm).symm

/-- The roots with those before them, the first one apart. -/
theorem exists_turn_cons {P : List ClassFile → ClassFile → Prop} :
    (∃ before r, before ++ [r] <+: c :: cs ∧ P before r) ↔
      P [] c ∨ ∃ before r, before ++ [r] <+: cs ∧ P (c :: before) r := by
  constructor
  · rintro ⟨before, r, hpre, hP⟩
    match before with
    | [] =>
      obtain ⟨rfl, _⟩ := List.cons_prefix_cons.mp hpre
      exact .inl hP
    | b :: before =>
      obtain ⟨rfl, htail⟩ := List.cons_prefix_cons.mp hpre
      exact .inr ⟨before, r, htail, hP⟩
  · rintro (hP | ⟨before, r, hpre, hP⟩)
    · exact ⟨[], c, List.cons_prefix_cons.mpr ⟨rfl, List.nil_prefix⟩, hP⟩
    · exact ⟨c :: before, r, List.cons_prefix_cons.mpr ⟨rfl, hpre⟩, hP⟩

/-- A name is given up if a root that fails is the first to meet it, among those that stand, as long as all trees find
room. -/
theorem abandoned_iff_meets (hg : g.Sound) {a : String} :
    ∀ (cs : List ClassFile) {s : Planting} {failed : List Failure},
    Ready g sites cs s → s.growth.visits.Nodup → (cs.foldl (plant g sites) s).failures = s.failures ++ failed →
    (∀ f ∈ failed, ¬ f.OutOfRoom) →
    (a ∈ (cs.foldl (plant g sites) s).growth.abandoned ↔ a ∈ s.growth.abandoned ∨
      ∃ before r, before ++ [r] <+: cs ∧ r.name ∈ failed.map (·.unit) ∧ a ∉ s.growth.visits ∧
        g.Meets r.name a ∧ ¬ ∃ q ∈ before, q.name ∉ failed.map (·.unit) ∧ g.Meets q.name a)
  | [], _, _, _, _, _, _ => by simp
  | c :: cs, s, failed, h, hnd, hf, hroom => by
    have hc := h.roots c (by simp)
    have hcv := h.fresh c (by simp)
    rw [List.foldl_cons, exists_turn_cons]
    rcases foldl_plant_cases hg h hf with ⟨names, hl, hnot, hrest⟩ | ⟨fault, later, hl, rfl, hrest⟩
    · -- the first root stands: what it meets is visited from now on
      obtain ⟨hgrow, _, _⟩ := h.settled.raise_ok hc hcv hl
      have hvisits : (s.plant g sites c).growth.visits = (s.growth.grow g c).state.visits := by
        rw [plant_of_ok hl, raise_of_grown hgrow]
      have hlost : (s.plant g sites c).growth.abandoned = s.growth.abandoned := by
        rw [plant_of_ok hl, raise_of_grown hgrow]
        exact (Growth.grow_settled h.settled.growth hc hcv hgrow).2.2.abandoned
      have hvisited := Growth.visited_grow_iff h.settled.growth hc hcv hgrow hg (a := a)
      rw [abandoned_iff_meets hg cs (h.plant hg) (by rw [hvisits]; exact Growth.nodup_grow hnd c) hrest hroom,
        hvisits, hlost, hvisited]
      simp only [hnot, exists_standing_cons, not_or, not_false_eq_true, true_and, false_and, false_or, and_assoc]
      refine or_congr_right (exists_congr fun before => exists_congr fun r => ?_)
      exact ⟨fun ⟨h1, h2, h3, h4, h5, h6⟩ => ⟨h1, h2, h3, h5, h4, h6⟩,
        fun ⟨h1, h2, h3, h4, h5, h6⟩ => ⟨h1, h2, h3, h5, h4, h6⟩⟩
    · -- it fails: the names are those visited before, and what it was the first to meet is given up
      have hgrow : (s.growth.grow g c).answer = .ok s.growth.forest.size := by
        rcases h.settled.errorOf_raise hc hcv with hfull | ⟨hgrow, _⟩
        · rw [hl, errorOf_error, Option.some.injEq] at hfull
          exact absurd (by rw [hfull]; rfl) (hroom _ List.mem_cons_self)
        · exact hgrow
      have he := h.settled.plant_failed hc hcv hl
      have hvisits : (s.plant g sites c).growth.visits = s.growth.visits := by rw [he]; rfl
      have hlost : a ∈ (s.plant g sites c).growth.abandoned ↔
          a ∈ s.growth.abandoned ∨ (a ∉ s.growth.visits ∧ g.Meets c.name a) := by
        rw [he, raise_of_grown hgrow, ← Growth.mem_newVisits_iff h.settled.growth hc hcv hgrow hg hnd, ← List.mem_append]
        rfl
      rw [abandoned_iff_meets hg cs (h.plant hg) (by rw [hvisits]; exact hnd) hrest fun f hfm => hroom f (by simp [hfm]),
        hvisits, hlost, or_assoc]
      refine or_congr_right (or_congr (by simp) (exists_congr fun before => exists_congr fun r => ?_))
      refine and_congr_right fun hpre => ?_
      have hne := h.ne_name hpre
      rw [exists_standing_cons, List.map_cons, exists_standing_later fun q hq => hne q (by simp [hq]),
        List.mem_cons (a := r.name), or_iff_right (hne r (by simp))]
      simp

end Planting

/-! ## The units that are left out of the trees -/

/-- The unit could not be loaded, or it is a class whose records are asked for and cannot be decoded. -/
def ClassUnit.isUnreadable (nested : Bool) : ClassUnit → Bool
  | .loaded c => nested && c.own && !c.nestedRecords.isOk
  | .corrupted .. => true

/-- The units that cannot be read, in the order of registration. -/
def Registry.unreadable (reg : Registry) (nested : Bool) : List String :=
  (reg.units.filter (·.isUnreadable nested)).map (·.name)

/-- The other classes with malformed exception tables, in the order of registration. -/
def Registry.unhandled (reg : Registry) (nested : Bool) : List String :=
  (reg.ownClasses.filter fun c => !(reg.unreadable nested).contains c.name && !c.handlerIndex.isOk).map (·.name)

theorem ClassUnit.isSome_failure? (nested : Bool) (u : ClassUnit) :
    (u.failure? nested).isSome = u.isUnreadable nested := by
  unfold failure? isUnreadable
  cases u with
  | corrupted name reason => rfl
  | loaded c =>
    cases nested with
    | false => rfl
    | true =>
      simp only [decodeFor, decode, ite_true, Bool.true_and]
      cases c.own with
      | false => rfl
      | true => cases c.nestedRecords <;> rfl

/-- Names of what something is wrong with, collected with what is wrong or without it. -/
theorem map_unit_filterMap {α : Type} {failure? : α → Option Failure} {name : α → String}
    (hname : ∀ {x f}, failure? x = some f → f.unit = name x) (xs : List α) :
    (xs.filterMap failure?).map (·.unit) = (xs.filter fun x => (failure? x).isSome).map name := by
  induction xs with
  | nil => rfl
  | cons x xs ih =>
    cases hx : failure? x with
    | none => simp [hx, ih]
    | some f => simp [hx, ih, hname hx]

theorem Registry.map_unit_unitFailures (reg : Registry) (nested : Bool) :
    (reg.unitFailures nested).map (·.unit) = reg.unreadable nested := by
  unfold unitFailures unreadable
  rw [map_unit_filterMap ClassUnit.unit_of_failure?]
  simp only [ClassUnit.isSome_failure?]

theorem ClassFile.isSome_handlerFailure? (c : ClassFile) :
    c.handlerFailure?.isSome = !c.handlerIndex.isOk := by
  unfold handlerFailure?
  cases c.handlerIndex <;> rfl

theorem Registry.candidates_eq (reg : Registry) (nested : Bool) :
    reg.candidates nested = reg.ownClasses.filter fun c => !(reg.unreadable nested).contains c.name := by
  unfold candidates
  rw [← map_unit_unitFailures]
  simp only [contains_map_unit]

theorem Registry.map_unit_handlerFailures (reg : Registry) (nested : Bool) :
    ((reg.candidates nested).filterMap (·.handlerFailure?)).map (·.unit) = reg.unhandled nested := by
  have hname : ∀ {c : ClassFile} {f : Failure}, c.handlerFailure? = some f → f.unit = c.name := by
    intro c f h
    obtain ⟨fault, _, rfl⟩ := Option.map_eq_some_iff.mp h
    rfl
  rw [map_unit_filterMap hname, candidates_eq, List.filter_filter]
  unfold unhandled
  simp only [ClassFile.isSome_handlerFailure?, Bool.and_comm]

theorem skipped_ground {σ : Type} (reg : Registry) (settings : Settings) (p : Policy σ) (n : Naming σ) :
    (reg.ground settings p n).skipped = reg.unreadable settings.nested ++ reg.unhandled settings.nested := by
  show (reg.earlyFailures settings p n).map (·.unit) = _
  rw [earlyFailures_eq, List.map_append, reg.map_unit_unitFailures, reg.map_unit_handlerFailures]

theorem Registry.Distinct.nodup_left_out {reg : Registry} (h : reg.Distinct) (nested : Bool) :
    (reg.unreadable nested ++ reg.unhandled nested).Nodup := by
  rw [List.nodup_append]
  refine ⟨?_, ?_, ?_⟩
  · exact h.sublist (List.filter_sublist.map _)
  · exact h.ownClasses.sublist (List.filter_sublist.map _)
  · rintro a ha b hb rfl
    obtain ⟨c, hc, rfl⟩ := List.mem_map.mp hb
    simp [ha] at hc

/-- The exception tables that are kept are those of the classes that are not left out. -/
theorem Registry.Distinct.forall₂_handlers {reg : Registry} (h : reg.Distinct) (nested : Bool) :
    List.Forall₂ (fun c ix => c.handlerIndex = .ok ix)
      (reg.ownClasses.filter fun c => !(reg.unreadable nested ++ reg.unhandled nested).contains c.name)
      ((reg.candidates nested).filterMap fun c => c.handlerIndex.toOption) := by
  have hkept : ∀ cs : List ClassFile, List.Forall₂ (fun c ix => c.handlerIndex = .ok ix)
      (cs.filter fun c => c.handlerIndex.isOk) (cs.filterMap fun c => c.handlerIndex.toOption) := by
    intro cs
    induction cs with
    | nil => exact .nil
    | cons c cs ih =>
      cases hc : c.handlerIndex with
      | ok ix => simpa [hc, Except.isOk, Except.toBool, Except.toOption] using ih
      | error fault => simpa [hc, Except.isOk, Except.toBool, Except.toOption] using ih
  have hfilter : (reg.ownClasses.filter fun c => !(reg.unreadable nested ++ reg.unhandled nested).contains c.name) =
      (reg.candidates nested).filter fun c => c.handlerIndex.isOk := by
    rw [Registry.candidates_eq, List.filter_filter]
    apply List.filter_congr
    intro c hc
    -- a class is the only one of its name, so that its name is on the list for its own tables
    have hown : c.name ∈ reg.unhandled nested ↔ c.name ∉ reg.unreadable nested ∧ c.handlerIndex.isOk = false := by
      unfold Registry.unhandled
      rw [List.mem_map]
      constructor
      · rintro ⟨d, hd, hdc⟩
        obtain ⟨hd, hbad⟩ := List.mem_filter.mp hd
        have hsame := Registry.own?_of_mem_ownClasses h hd
        rw [hdc, Registry.own?_of_mem_ownClasses h hc] at hsame
        cases hsame
        simpa using hbad
      · intro hbad
        exact ⟨c, List.mem_filter.mpr ⟨hc, by simpa using hbad⟩, rfl⟩
    rw [Bool.eq_iff_iff]
    simp only [List.contains_eq_mem, List.mem_append, hown]
    cases c.handlerIndex.isOk <;> simp
  rw [hfilter]
  exact hkept _

/-! ## The report -/

namespace Ground

/-- The tree of `root` gets the class, when the roots `before` have had their turn and `f` holds the
trees of those that stand. -/
def Places (g : Ground) (f : Forest) (before : List ClassFile) (root a : String) : Prop :=
  g.Reaches root a ∧ ¬ ∃ q ∈ before, f.InTree q.name a

/-- The tree of `root` is then the first to visit the name. -/
def FirstVisits (g : Ground) (f : Forest) (before : List ClassFile) (root name : String) : Prop :=
  (name = root ∨ ∃ e, g.Places f before root e ∧ name ∈ g.below e) ∧ ¬ ∃ q ∈ before, g.MetIn f q.name name

theorem firstVisits_iff {g : Ground} {f : Forest} {before : List ClassFile} {root name : String} :
    g.FirstVisits f before root name ↔ g.Meets root name ∧ ¬ ∃ q ∈ before, g.MetIn f q.name name := by
  unfold FirstVisits Meets Places
  refine and_congr_left fun hnot => or_congr_right (exists_congr fun e => ?_)
  constructor
  · rintro ⟨⟨hr, _⟩, hb⟩
    exact ⟨hr, hb⟩
  · rintro ⟨hr, hb⟩
    exact ⟨⟨hr, fun ⟨q, hq, hin⟩ => hnot ⟨q, hq, .inr ⟨e, hin, hb⟩⟩⟩, hb⟩

end Ground

/-- The outcome reports the units left out of the trees, then the roots in `felled` and last the
classes in `stray`, and nothing else. -/
structure Outcome.Reports (g : Ground) (sites : List CallSite) (felled stray : List String) (o : Outcome) :
    Prop where
  skipped : g.skipped = g.registry.unreadable g.nested ++ g.registry.unhandled g.nested
  units : o.failures.map (·.unit) = g.skipped ++ felled ++ stray
  distinct : (o.failures.map (·.unit)).Nodup
  felled_order : felled.Sublist (g.rootClasses.map (·.name))
  /-- the roots whose trees get a class with a bad call site, or find the arena full -/
  felled_iff : ∀ {before : List ClassFile} {r : ClassFile}, before ++ [r] <+: g.rootClasses →
    (r.name ∈ felled ↔ (∃ a, g.Places o.forest before r.name a ∧ HasBadSite sites a) ∨
      ∃ f ∈ o.failures, f.unit = r.name ∧ f.OutOfRoom)
  /-- nothing finds the arena full if there are ids for all classes and call sites -/
  room : g.registry.ownClasses.length + sites.length < Forest.capacity → o.InRoom
  stray_order : stray.Sublist (declaringClasses sites)
  /-- the classes with a bad call site that have neither failed nor a node, and were not lost with a tree -/
  stray_iff : o.InRoom → ∀ {a : String}, a ∈ stray ↔ HasBadSite sites a ∧ a ∉ g.skipped ++ felled ∧
    o.forest.find? a = none ∧ ¬ ∃ before r, before ++ [r] <+: g.rootClasses ∧ r.name ∈ felled ∧
      g.FirstVisits o.forest before r.name a
  /-- the exception tables of all other classes -/
  handlers : List.Forall₂ (fun c ix => c.handlerIndex = .ok ix)
    (g.registry.ownClasses.filter fun c => !g.skipped.contains c.name) o.handlers

section
variable {g : Ground} {sites : List CallSite} {early : List Failure} {o : Outcome}

/-- The classes that fail without a tree, after the given trees. -/
def Planting.strays (g : Ground) (sites : List CallSite) (s : Planting) : List String :=
  ((declaringClasses sites).filter fun name => !s.claimed.contains name).filter fun name =>
    (g.strayFailure? sites s.growth.abandoned s.failures name).isSome

theorem Planting.Settled.mem_strays {s : Planting} (h : s.Settled g sites) {a : String} :
    a ∈ s.strays g sites ↔ HasBadSite sites a ∧ a ∉ g.skipped ∧ a ∉ s.failures.map (·.unit) ∧
      s.growth.forest.find? a = none ∧ a ∉ s.growth.abandoned := by
  unfold strays
  rw [List.mem_filter, Ground.isSome_strayFailure?]
  constructor
  · rintro ⟨ha, hskip, hfail, hlost, hbad⟩
    exact ⟨hbad, hskip, hfail, h.find?_eq_none ha, hlost⟩
  · rintro ⟨hbad, hskip, hfail, hfind, hlost⟩
    refine ⟨List.mem_filter.mpr ⟨mem_declaringClasses.mpr hbad.sitesOf_ne_nil, ?_⟩, hskip, hfail, hlost, hbad⟩
    have hfree : a ∉ s.claimed := fun hm => h.growth.shaped.named.not_has_iff.mpr hfind (h.mem_claimed.mp hm).1
    simpa using hfree

theorem Planting.map_unit_strays (s : Planting) :
    (((declaringClasses sites).filter fun name => !s.claimed.contains name).filterMap
      (g.strayFailure? sites s.growth.abandoned s.failures)).map (·.unit) = s.strays g sites := by
  have h := @map_unit_filterMap String (g.strayFailure? sites s.growth.abandoned s.failures) id
    Ground.unit_of_strayFailure? ((declaringClasses sites).filter fun name => !s.claimed.contains name)
  rw [h, List.map_id]
  rfl

/-- The units left out of the trees and the roots that fail are all different. -/
theorem Ground.Sound.nodup_skipped_append (hg : g.Sound)
    (hskip : g.skipped = g.registry.unreadable g.nested ++ g.registry.unhandled g.nested) {felled : List String}
    (hsub : felled.Sublist (g.rootClasses.map (·.name))) : (g.skipped ++ felled).Nodup := by
  rw [List.nodup_append]
  refine ⟨?_, ?_, ?_⟩
  · rw [hskip]; exact hg.registry.nodup_left_out g.nested
  · exact hg.nodup_rootClasses.sublist hsub
  · rintro a ha b hb rfl
    obtain ⟨c, hc, rfl⟩ := List.mem_map.mp (hsub.subset hb)
    exact (Ground.mem_rootClasses.mp hc).2.1 ha

theorem Outcome.reports_of_planted (hg : g.Sound) (hearly : early.map (·.unit) = g.skipped)
    (hplain : ∀ f ∈ early, ¬ f.OutOfRoom)
    (hskip : g.skipped = g.registry.unreadable g.nested ++ g.registry.unhandled g.nested)
    (hforest : o.forest = (g.plantForest sites early).forest)
    (hfail : o.failures = (g.plantForest sites early).failures)
    (hhandlers : o.handlers = (g.registry.candidates g.nested).filterMap fun c => c.handlerIndex.toOption) :
    ∃ felled stray, o.Reports g sites felled stray := by
  have hinRoom : g.registry.ownClasses.length + sites.length < Forest.capacity → o.InRoom := by
    intro hroom
    rw [Outcome.InRoom, hfail]
    exact Ground.inRoom_plantForest hg hroom hplain
  obtain ⟨hs, failed, hf, hsub, hroots⟩ := Planting.plantAll_spec hg sites early
  have hstart := Planting.Ready.start hg sites early
  have hplanted := hforest.trans (Ground.plantForest_spec hg sites early).1
  rw [Ground.plantForest_failures hg] at hfail
  have hfells := @Planting.failed_iff_reaches g sites hg g.rootClasses _ _ hstart hf
  have hlost := fun hroom a => Planting.abandoned_iff_meets hg (a := a) g.rootClasses hstart List.nodup_nil hf hroom
  change ∀ _, ∀ a, a ∈ (Planting.plantAll g sites { failures := early }).growth.abandoned ↔ _ at hlost
  generalize Planting.plantAll g sites { failures := early } = t at *
  have hsettled : Growth.Settled g { forest := o.forest, visits := t.growth.visits } := by
    rw [hplanted]; exact hs.growth.setUnattached _
  have hnames : o.forest.rootNames =
      ((g.rootClasses.map (·.name)).filter fun b => !(failed.map (·.unit)).contains b).map some := by
    rw [hplanted]; exact hroots
  have hfind : ∀ a, o.forest.find? a = t.growth.forest.find? a := by rw [hplanted]; exact fun _ => rfl
  have hfailed : t.failures.map (·.unit) = g.skipped ++ failed.map (·.unit) := by
    rw [hf, List.map_append, hearly]
  have hstray : ∀ a, a ∈ t.strays g sites ↔ HasBadSite sites a ∧ a ∉ g.skipped ++ failed.map (·.unit) ∧
      o.forest.find? a = none ∧ a ∉ t.growth.abandoned := by
    intro a
    rw [hs.mem_strays, hfailed, hfind]
    refine and_congr_right fun _ => and_iff_right_of_imp fun h => ?_
    exact fun hm => h.1 (List.mem_append_left _ hm)
  have hunits : o.failures.map (·.unit) = g.skipped ++ failed.map (·.unit) ++ t.strays g sites := by
    rw [hfail, List.map_append, hfailed, t.map_unit_strays]
  refine ⟨failed.map (·.unit), t.strays g sites, hskip, hunits, ?_, hsub, ?_, hinRoom, ?_, ?_, ?_⟩
  · rw [hunits, List.nodup_append]
    refine ⟨hg.nodup_skipped_append hskip hsub, ?_, ?_⟩
    · exact (nodup_declaringClasses sites).sublist (List.filter_sublist.trans List.filter_sublist)
    · rintro a ha b hb rfl
      exact ((hstray a).mp hb).2.1 ha
  · intro before r hpre
    rw [hfells hpre]
    refine or_congr (exists_congr fun a => ?_) ?_
    · unfold Ground.Places
      rw [hsettled.inTree_iff_reaches hg hnames ((List.prefix_append before [r]).trans hpre)]
      constructor
      · rintro ⟨hr, _, hnot, hbad⟩
        exact ⟨⟨hr, hnot⟩, hbad⟩
      · rintro ⟨⟨hr, hnot⟩, hbad⟩
        exact ⟨hr, Forest.not_has_empty, hnot, hbad⟩
    · -- what is left out of the trees is no root, and a call site without a tree needs no room
      rw [hfail, hf]
      constructor
      · rintro ⟨f, hfm, hfr⟩
        exact ⟨f, by simp [hfm], hfr⟩
      · rintro ⟨f, hfm, hfr, hfull⟩
        rw [List.mem_append, List.mem_append] at hfm
        rcases hfm with (hfm | hfm) | hfm
        · have hskipped : r.name ∈ g.skipped := by rw [← hearly, ← hfr]; exact List.mem_map_of_mem hfm
          exact absurd hskipped (Ground.mem_rootClasses.mp (hpre.subset (by simp))).2.1
        · exact ⟨f, hfm, hfr, hfull⟩
        · obtain ⟨name, _, hname⟩ := List.mem_filterMap.mp hfm
          exact absurd hfull (Ground.not_outOfRoom_of_strayFailure? hname)
  · exact List.filter_sublist.trans List.filter_sublist
  · intro hroom a
    have hroom' : ∀ f ∈ failed, ¬ f.OutOfRoom := fun f hfm => hroom f (by rw [hfail, hf]; simp [hfm])
    rw [hstray, hlost hroom']
    refine and_congr_right fun _ => and_congr_right fun _ => and_congr_right fun _ => not_congr ?_
    rw [or_iff_right (by simp)]
    refine exists_congr fun before => exists_congr fun r => and_congr_right fun hpre =>
      and_congr_right fun _ => ?_
    rw [Ground.firstVisits_iff, hsettled.metIn_iff_meets hg hnames ((List.prefix_append before [r]).trans hpre)]
    exact and_iff_right (by simp)
  · rw [hhandlers, hskip]
    exact hg.registry.forall₂_handlers g.nested

end

/-- Every run with valid settings reports exactly what failed. -/
theorem run_reports {σ : Type} (us : List ClassUnit) (settings : Settings) (p : Policy σ) (n : Naming σ)
    (sites : List CallSite) (hv : settings.validate = .ok ()) :
    ∃ o n' felled stray, (Registry.ofUnits us).run settings p n sites = .ok (o, n') ∧
      o.Reports ((Registry.ofUnits us).ground settings p n) sites felled stray := by
  obtain ⟨o, n', hrun, hforest, hfail, hhandlers, _⟩ := run_eq (Registry.ofUnits us) settings p n sites hv
  obtain ⟨felled, stray, h⟩ := Outcome.reports_of_planted (sound_ground settings p n us) rfl
    (Registry.not_outOfRoom_earlyFailures _ settings p n) (skipped_ground _ settings p n) hforest hfail hhandlers
  exact ⟨o, n', felled, stray, hrun, h⟩

/-- A unit that could not be loaded, a class with an exception table that ends before it starts, two classes
that enclose the same nested class, and a library class. -/
def failingUnits : List ClassUnit :=
  [.corrupted "app/Torn" "truncated",
   .loaded
    { name := "app/Loose", own := true
      methods := [{ name := "run", descriptor := "()V", catches := [⟨9, 4, 12, 0⟩] }] },
   listing "app/A" "app/N", listing "app/B" "app/N", .loaded { name := "app/N", own := true },
   .loaded { name := "lib/Helper" }]

/-- Bad call sites: in a class that is left out anyway, at the top, and in the library class. -/
def failingSites : List CallSite :=
  ["app/Loose", "lib/Helper", "app/A"].map fun name =>
    ⟨name, name, "run", "()V", 0, "java/lang/Runnable", "run", "()V"⟩

theorem run_reports_failingUnits : ∃ o n' felled stray,
    (Registry.ofUnits failingUnits).run {} (.keep Unit) ⟨(), {}⟩ failingSites = .ok (o, n') ∧ o.InRoom ∧
      o.Reports ((Registry.ofUnits failingUnits).ground {} (.keep Unit) ⟨(), {}⟩) failingSites felled stray := by
  obtain ⟨o, n', felled, stray, hrun, h⟩ := run_reports failingUnits {} (.keep Unit) ⟨(), {}⟩ failingSites rfl
  exact ⟨o, n', felled, stray, hrun, h.room (by decide +kernel), h⟩

end ClassNest
