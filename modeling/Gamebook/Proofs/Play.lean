/-
# Where a reader can get

A reader begins at the start cell with nothing held and follows links, any number
of them, through whatever graph the cells make.  Links carry the holdings of the
middle of a page, cells may link to themselves or to nothing, and gifts and
losses may be refused; still a bit that is set was given.

`Granted story held` is the invariant: each set bit is the bit of an item that
some line of the story gives.  A line keeps it (`granted_evaluate`), so a page
does (`granted_of_mem_links`), so a walk does (`Reached.granted`).

Main statement: `legitimate_of_reached`.
-/
import Gamebook.Play
import Gamebook.Proofs.Page.Evaluation
import Gamebook.Proofs.Token

namespace Gamebook

/-- Some line of some cell of the story names the item as its gift. -/
def Story.Gives (story : Story) (name : String) : Prop :=
  ∃ id cell, story.cell? id = some cell ∧ ∃ line ∈ cell.lines, line.give = some name

/-- Every set bit belongs to an item that the story defines and gives. -/
def Granted (story : Story) (held : Holdings) : Prop :=
  ∀ i, held.hasBit i = true → ∃ item ∈ story.items.items, item.bit = i ∧ story.Gives item.name

section Granted

variable {story : Story} {held : Holdings}

theorem granted_empty (story : Story) : Granted story .empty := by
  intro i h
  rw [Holdings.hasBit_empty] at h
  exact Bool.noConfusion h

theorem Granted.insert (h : Granted story held) {item : Item} (hitem : item ∈ story.items.items)
    (hgives : story.Gives item.name) : Granted story (held.insert item) := by
  intro i hi
  rw [Holdings.hasBit_insert (Registry.bit_lt hitem), Bool.or_eq_true] at hi
  rcases hi with hi | hi
  · exact h i hi
  · exact ⟨item, hitem, of_decide_eq_true hi, hgives⟩

theorem Granted.erase (h : Granted story held) {item : Item} (hitem : item ∈ story.items.items) :
    Granted story (held.erase item) := by
  intro i hi
  rw [Holdings.hasBit_erase (Registry.bit_lt hitem), Bool.and_eq_true] at hi
  exact h i hi.1

/-- The bits of a story's items are those below their number. -/
theorem Granted.toNat_lt (h : Granted story held) : held.bits.toNat < 2 ^ story.items.size := by
  refine Nat.lt_pow_two_of_testBit _ fun i hi => Bool.eq_false_iff.mpr fun hbit => ?_
  obtain ⟨item, hitem, rfl, -⟩ := h i hbit
  exact absurd (Registry.bit_lt_size hitem) (Nat.not_lt_of_ge hi)

end Granted

/-! ## Lines and pages -/

section Page

open Page

variable (settings : Settings) {story : Story}

theorem granted_afterGive {index : Nat} {line : Line} {held given : Holdings}
    (h : Granted story held) (hgives : ∀ name, line.give = some name → story.Gives name)
    (hgiven : afterGive story.items index line held = .ok given) : Granted story given := by
  rcases afterGive_eq_ok hgiven with ⟨-, rfl⟩ | ⟨name, item, hname, hlookup, -, rfl⟩
  · exact h
  · obtain ⟨hitem, rfl⟩ := Registry.lookup?_eq_some_iff.mp hlookup
    exact h.insert hitem (hgives _ hname)

theorem granted_afterTake {index : Nat} {line : Line} {held kept : Holdings}
    (h : Granted story held) (hkept : afterTake story.items index line held = .ok kept) :
    Granted story kept := by
  rcases afterTake_eq_ok hkept with ⟨-, rfl⟩ | ⟨name, item, -, hlookup, -, rfl⟩
  · exact h
  · exact h.erase (Registry.lookup?_eq_some_iff.mp hlookup).1

/-- A line of the story keeps the invariant, whichever way it ends. -/
theorem granted_evaluate {line : Line}
    (hgives : ∀ name, line.give = some name → story.Gives name) (index : Nat) (held : Holdings)
    (h : Granted story held) : Granted story (evaluate settings story index line held).held := by
  rcases evaluate_cases settings story index line held with
    ⟨-, he⟩ | ⟨-, refusal, -, he⟩ | ⟨-, given, refusal, hgive, -, he⟩ |
    ⟨-, given, kept, hgive, htake, he⟩
  · rw [he]; exact h
  · rw [he]; exact h
  · -- the gift was made before the loss was refused, and it stays made
    rw [he]
    exact granted_afterGive h hgives hgive
  · rw [he, present_held]
    exact granted_afterTake (granted_afterGive h hgives hgive) htake

theorem granted_of_mem_links {t next : Token} (h : Granted story t.held)
    (hnext : next ∈ (Play.pageAt settings story t).summary.links) : Granted story next.held := by
  rw [Play.pageAt] at hnext
  cases hc : story.cell? t.cell with
  | none =>
      rw [render, hc] at hnext
      exact absurd hnext List.not_mem_nil
  | some cell =>
      rw [summary_render settings story hc] at hnext
      have hline : ∀ line ∈ cell.lines, ∀ index held, Granted story held →
          Granted story (evaluate settings story index line held).held := by
        intro line hmem
        exact granted_evaluate settings fun name hg => ⟨t.cell, cell, hc, line, hmem, hg⟩
      exact (evaluateLines_invariant settings story hline 0 t.held h).2 next hnext

end Page

/-! ## Walks -/

namespace Play

/-- Where a reader can get: the page of the start token is shown, then link after link is
followed by its number.  The settings may change on the way. -/
inductive Reached (story : Story) : Play → Prop
  | start {settings : Page.Settings} {page : Page.Rendering} {play : Play} :
      Play.start.step settings story .stay = .ok (page, play) → Reached story play
  | follow {settings : Page.Settings} {page : Page.Rendering} {play next : Play} {n : Nat} :
      Reached story play → play.step settings story (.follow n) = .ok (page, next) →
      Reached story next

variable {settings : Page.Settings} {story : Story} {play next : Play} {page : Page.Rendering}

theorem step_eq_ok_iff {move : Move} :
    play.step settings story move = .ok (page, next) ↔
      ∃ t, play.target move = .ok t ∧ pageAt settings story t = page ∧
        next = ⟨t, page.summary.links⟩ := by
  unfold step
  cases play.target move with
  | error e => simp [Except.map]
  | ok t =>
      simp only [Except.map, Except.ok.injEq, Prod.mk.injEq]
      constructor
      · rintro ⟨rfl, rfl⟩
        exact ⟨t, rfl, rfl, rfl⟩
      · rintro ⟨t, rfl, rfl, rfl⟩
        exact ⟨rfl, rfl⟩

theorem target_follow_eq_ok_iff {n : Nat} {t : Token} :
    play.target (.follow n) = .ok t ↔ play.links[n]? = some t := by
  cases hl : play.links[n]? <;> simp [target, hl]

/-- A written token leads to where its link leads. -/
theorem target_goTo_text {n : Nat} {t : Token} (h : play.links[n]? = some t) :
    play.target (.goTo t.text) = play.target (.follow n) := by
  rw [target_follow_eq_ok_iff.mpr h, target, Token.ofText_text]
  rfl

/-- The links of a reached position are those of a page shown there. -/
theorem Reached.links_eq (h : Reached story play) :
    ∃ settings, play.links = (pageAt settings story play.token).summary.links := by
  cases h with
  | @start settings page _ hstep =>
      obtain ⟨t, -, rfl, rfl⟩ := step_eq_ok_iff.mp hstep
      exact ⟨settings, rfl⟩
  | @follow settings page _ _ n _ hstep =>
      obtain ⟨t, -, rfl, rfl⟩ := step_eq_ok_iff.mp hstep
      exact ⟨settings, rfl⟩

theorem Reached.granted (h : Reached story play) : Granted story play.token.held := by
  induction h with
  | start hstep =>
      obtain ⟨t, ht, -, rfl⟩ := step_eq_ok_iff.mp hstep
      obtain rfl := Except.ok.inj ht
      exact granted_empty story
  | follow hreached hstep ih =>
      obtain ⟨t, ht, -, rfl⟩ := step_eq_ok_iff.mp hstep
      obtain ⟨settings, hlinks⟩ := hreached.links_eq
      have hmem := List.mem_of_getElem? (target_follow_eq_ok_iff.mp ht)
      rw [hlinks] at hmem
      exact granted_of_mem_links settings ih hmem

/-- Every position that a reader can reach has no bit set but those of items that the story
defines and gives, it is read back from its text, and to write down the token of a link is as
good as to follow the link. -/
theorem legitimate_of_reached (h : Reached story play) :
    play.token.held.bits.toNat < 2 ^ story.items.size ∧
      (∀ i, play.token.held.bits.toNat.testBit i = true →
        ∃ item ∈ story.items.items, item.bit = i ∧ story.Gives item.name) ∧
      Token.ofText play.token.text = .ok play.token ∧
      ∀ settings n t, play.links[n]? = some t →
        play.step settings story (.follow n) = play.step settings story (.goTo t.text) := by
  refine ⟨h.granted.toNat_lt, h.granted, Token.ofText_text _, ?_⟩
  intro settings n t ht
  rw [step, step, target_goTo_text ht]

/-- One cell that hands over a key on the way back to itself. -/
def keyStory : Story :=
  { Story.empty "A walk" .epoch with
    items := ⟨[⟨"key", 0, "A key"⟩], rfl, by decide, by decide⟩ }.insertCell
    ⟨"Start", none, [⟨[], ["key"], some "key", none, some "Start", "Take the key"⟩]⟩

theorem legitimate_of_reached_keyStory :
    ∃ play, Reached keyStory play ∧ play.token = ⟨.start, ⟨1⟩⟩ ∧
      play.token.held.bits.toNat < 2 ^ keyStory.items.size ∧
      Token.ofText play.token.text = .ok play.token := by
  let shown : Play := ⟨.start, [⟨.start, ⟨1⟩⟩]⟩
  have hlinks : (pageAt .default keyStory .start).summary.links = shown.links := by decide +kernel
  have hstart : Play.start.step .default keyStory .stay =
      .ok (pageAt .default keyStory .start, shown) :=
    step_eq_ok_iff.mpr ⟨.start, rfl, rfl, by rw [hlinks]⟩
  have hfollow : Reached keyStory
      ⟨⟨.start, ⟨1⟩⟩, (pageAt .default keyStory ⟨.start, ⟨1⟩⟩).summary.links⟩ :=
    (Reached.start hstart).follow (n := 0) (step_eq_ok_iff.mpr ⟨⟨.start, ⟨1⟩⟩, rfl, rfl, rfl⟩)
  obtain ⟨hlt, -, htext, -⟩ := legitimate_of_reached hfollow
  exact ⟨_, hfollow, rfl, hlt, htext⟩

end Play

end Gamebook
