import Mathlib.Logic.Relation
import Mentions.Proofs.Growth.Baseline
import Mentions.Proofs.Scan.Append

/-!
# Edits behind a mention

Whatever is written, pasted or removed behind a mention, the repair against the buffer before the
edit lists the mention again: `mention_survives_edits_behind`. Two texts that agree up to the end of
the mention (`AgreeUpTo`) have the same mentions before it, so none of these has grown and none is
cut. At its start the edited buffer has a mention with the old one at its head, which is either the
old one itself or has grown from it, and the repair keeps the old one in both cases
(`getD_keptOld?`).
-/

namespace Mentions

open Text

/-! ## Texts that agree -/

/-- The texts agree on their first `u` units. -/
def Text.AgreeUpTo (u : Nat) (t t' : Text) : Prop :=
  ∃ l r r', t = l ++ r ∧ t' = l ++ r' ∧ units l = u

/-- A replacement at or behind a place changes nothing before it. -/
theorem Text.agreeUpTo_of_splice? {t t' new : Text} {u start stop : Nat} (hu : Addressable t u)
    (hle : u ≤ start) (h : t.splice? start stop new = some t') : AgreeUpTo u t t' := by
  obtain ⟨l, x, r, rfl, rfl, -, rfl⟩ := splice?_eq_some_iff.1 h
  obtain ⟨l', r', he, rfl⟩ := addressable_iff.1 hu
  obtain ⟨y, rfl, rfl⟩ := append_of_le he.symm hle
  exact ⟨l', y ++ (x ++ r), y ++ (new ++ r), by simp, by simp, rfl⟩

namespace Growth

variable {m : Char} {config : Config} {previous current : Text} {p s : Span}

/-! ## One edit -/

/-- A mention has not grown from one of the same buffer. -/
theorem not_grown_of_mem (hs : s ∈ scan m previous) : ¬s.Grown (scan m previous) := by
  rintro ⟨p, hp, hstart, -, hlt⟩
  rw [eq_of_start_eq hp hs hstart] at hlt
  exact Nat.lt_irrefl _ hlt

/-- Where an old mention is at the head of a new one, the repair leaves the old one. -/
theorem getD_keptOld? (hp : p ∈ scan m previous) (hstart : p.start = s.start)
    (hpre : p.text <+: s.text) : (keptOld? (scan m previous) s).getD s.text = p.text := by
  by_cases hlt : p.text.length < s.text.length
  · rw [keptOld?, grownFrom?_eq_some_iff.2 ⟨hp, hstart, hpre, hlt⟩]
    rfl
  · have htext : p.text = s.text := hpre.eq_of_length_le (Nat.le_of_not_lt hlt)
    have hnone : ¬s.Grown (scan m previous) := by
      rintro ⟨q, hq, hqs, -, hqlt⟩
      rw [eq_of_start_eq hq hp (hqs.trans hstart.symm)] at hqlt
      exact hlt hqlt
    rw [keptOld?, grownFrom?_eq_none_iff.2 hnone, htext]
    rfl

/-- After an edit behind a mention, the mentions before it are old ones, and then comes one with the
old mention at its head. -/
theorem exists_scan_eq_of_agreeUpTo (hm : isBodyChar m = false) (hs : s ∈ scan m previous)
    (h : AgreeUpTo s.stop previous current) :
    ∃ before s' after, scan m current = before ++ s' :: after ∧
      (∀ s₀ ∈ before, s₀ ∈ scan m previous) ∧ s.start = s'.start ∧ s.text <+: s'.text := by
  obtain ⟨l, r, r', rfl, rfl, hu⟩ := h
  obtain ⟨l₀, b, rfl, hb, hr, rfl⟩ := exists_of_stop_eq hs hu.symm
  rw [List.append_assoc, List.cons_append, List.append_assoc, List.cons_append]
  have hne : body (b ++ r') ≠ [] := fun h0 => hb.not_released (body_eq_nil_iff.1 h0)
  obtain ⟨x, hsplit, hx⟩ := exists_body_append (b ++ r')
  have hscan := scan_append_mention (l := l₀) hm (isBody_body hne) hx
  rw [← hsplit] at hscan
  refine ⟨_, _, _, hscan, ?_, rfl, List.cons_prefix_cons.2 ⟨rfl, hb.isPrefix_body r'⟩⟩
  intro s₀ hs₀
  rw [scan_append_mention hm hb hr]
  exact List.mem_append_left _ hs₀

/-- An edit behind a mention and a repair leave the mention as it is. -/
theorem mem_scan_repair_of_agreeUpTo (hm : isBodyChar config.marker = false)
    (hz : isZeroWidth config.marker = false) (hs : s ∈ scan config.marker previous)
    (h : AgreeUpTo s.stop previous current) :
    s ∈ scan config.marker (repair config current (some previous)) := by
  obtain ⟨before, s', after, hscan, hbefore, hstart, hpre⟩ := exists_scan_eq_of_agreeUpTo hm hs h
  have hcount : before.countP (fun s => s.Grown (scan config.marker previous)) = 0 := by
    refine List.countP_eq_zero.2 fun s₀ hs₀ => ?_
    rw [decide_eq_true_eq]
    exact not_grown_of_mem (hbefore s₀ hs₀)
  -- no mention before it has grown, so the one at its place does not move
  have hget := getElem?_scan_repair config hm hz current previous before.length
  rw [hscan, List.getElem?_append_right (Nat.le_refl _), Nat.sub_self, List.getElem?_cons_zero,
    List.take_left, hcount, Option.map_some, getD_keptOld? hs hstart hpre] at hget
  have hkeep : s'.keeping (3 * 0) s.text = s := by
    rw [Span.keeping, Nat.mul_zero, Nat.add_zero, ← hstart, ← s.stop_eq hs]
  rw [hkeep] at hget
  exact List.mem_of_getElem? hget

/-! ## Any number of edits -/

/-- The text behind an offset is edited, and then the buffer is repaired against the one before. -/
def EditedBehind (config : Config) (u : Nat) (previous fixed : Text) : Prop :=
  ∃ current, AgreeUpTo u previous current ∧ fixed = repair config current (some previous)

/-- **A mention survives every edit that follows it.** After any change behind its end and a repair
against the buffer before the change it is listed as before, and so it is after any number of such
edits, each with its repair. -/
theorem mention_survives_edits_behind (config : Config) (previous : Text) (s : Span)
    (hv : config.validate = .ok ()) (hs : s ∈ scan config.marker previous) :
    (∀ current, AgreeUpTo s.stop previous current →
      s ∈ scan config.marker (repair config current (some previous))) ∧
    ∀ buffer, Relation.ReflTransGen (EditedBehind config s.stop) previous buffer →
      s ∈ scan config.marker buffer := by
  obtain ⟨hm, hz, -⟩ := Config.marker_of_validate hv
  constructor
  · intro current h
    exact mem_scan_repair_of_agreeUpTo hm hz hs h
  · intro buffer h
    induction h with
    | refl => exact hs
    | tail _ hstep ih =>
      obtain ⟨current, hagree, rfl⟩ := hstep
      exact mem_scan_repair_of_agreeUpTo hm hz ih hagree

/-- Letters are written at the end of a mention, and then the separator that the repair has put
there is removed. -/
theorem mention_survives_edits_behind_twice :
    ({} : Config).validate = .ok () ∧ (⟨3, 7, "@bob".toList⟩ : Span) ∈ scan '@' "hi @bob-".toList ∧
    splice? "hi @bob-".toList 7 7 "by".toList = some "hi @bobby-".toList ∧
    repair {} "hi @bobby-".toList (some "hi @bob-".toList) =
      "hi @bob\u200b\u200c\u200bby-".toList ∧
    splice? "hi @bob\u200b\u200c\u200bby-".toList 7 10 [] = some "hi @bobby-".toList ∧
    (⟨3, 7, "@bob".toList⟩ : Span) ∈ scan '@' (repair {} "hi @bobby-".toList
      (some "hi @bob\u200b\u200c\u200bby-".toList)) := by
  have hv : ({} : Config).validate = .ok () := by decide
  have hs : (⟨3, 7, "@bob".toList⟩ : Span) ∈ scan '@' "hi @bob-".toList := by decide
  have hwrite : splice? "hi @bob-".toList 7 7 "by".toList = some "hi @bobby-".toList := by decide
  have hfixed : repair {} "hi @bobby-".toList (some "hi @bob-".toList) =
      "hi @bob\u200b\u200c\u200bby-".toList := by decide +kernel
  have hremove : splice? "hi @bob\u200b\u200c\u200bby-".toList 7 10 [] =
      some "hi @bobby-".toList := by decide
  have hfirst : EditedBehind {} 7 "hi @bob-".toList "hi @bob\u200b\u200c\u200bby-".toList :=
    ⟨_, agreeUpTo_of_splice? (by decide) (Nat.le_refl 7) hwrite, hfixed.symm⟩
  have hthen : EditedBehind {} 7 "hi @bob\u200b\u200c\u200bby-".toList
      (repair {} "hi @bobby-".toList (some "hi @bob\u200b\u200c\u200bby-".toList)) :=
    ⟨_, agreeUpTo_of_splice? (by decide) (Nat.le_refl 7) hremove, rfl⟩
  have h := (mention_survives_edits_behind {} "hi @bob-".toList _ hv hs).2
  exact ⟨hv, hs, hwrite, hfixed, hremove, h _ (.tail (.single hfirst) hthen)⟩

end Growth

end Mentions
