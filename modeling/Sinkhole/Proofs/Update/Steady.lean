import Sinkhole.Proofs.Update.Learned
import Sinkhole.Proofs.Update.One

/-! Worlds whose answers do not change.

If what a world answers depends on what it is asked alone, a fetch comes to the same
whenever it is made, and so does reading what was fetched. Where there is no stop that
decides how a source comes out, of a run over all sources and of one over it alone:
`fate` says what becomes of it, and neither the run nor what came before has a part in
that. -/
namespace Sinkhole

variable {σ : Type}

/-- What the world answers depends on what it is asked alone. What comes in meanwhile may differ. -/
structure Steadfast (w : World σ) : Prop where
  facts : ∀ path x y, (w.facts path x).answer = (w.facts path y).answer
  exchange : ∀ r x y, (w.exchange r x).answer = (w.exchange r y).answer
  openFile : ∀ path x y, (w.openFile path x).answer.map Opened.reading =
    (w.openFile path y).answer.map Opened.reading
  openBody : ∀ bytes x y, (w.openBody bytes x).answer.map Opened.reading =
    (w.openBody bytes y).answer.map Opened.reading

/-! ### Fetches -/

/-- The work comes to the same wherever it starts. -/
def Work.Steady {α : Type} (work : Work σ α) : Prop :=
  ∀ u u' : Updater σ, (upon work u).1 = (upon work u').1

theorem Work.Steady.bind {α β : Type} {work : Work σ α} {next : α → Work σ β}
    (hw : Steady work) (hn : ∀ a, Steady (next a)) : Steady (work >>= next) := by
  intro u u'
  have hfirst := hw u u'
  rw [upon_bind, upon_bind]
  cases h : upon work u with
  | mk r v =>
    cases h' : upon work u' with
    | mk r' v' =>
      rw [h, h'] at hfirst
      obtain rfl : r = r' := hfirst
      cases r with
      | ok a => exact hn a v v'
      | error e => rfl

/-- **All that is asked of a steadfast world comes to the same at any time.** -/
theorem Fetch.Inquiry.steady {w : World σ} {q : Fetch.Request → Prop} {α : Type}
    {work : Work σ α} (h : Inquiry w q work) (hw : Steadfast w) : Work.Steady work := by
  induction h with
  | pure a => exact fun _ _ => rfl
  | throw e => exact fun _ _ => rfl
  | bind first rest ihf ihr => exact ihf.bind ihr
  | waited millis => exact fun _ _ => rfl
  | outcome inquiry ih =>
    intro u u'
    rw [Work.upon_outcome, Work.upon_outcome, ih u u']
  | facts path =>
    intro u u'
    rw [Work.upon_observe, Work.upon_observe, hw.facts path u.world u'.world]
  | @exchange r taken =>
    have hask : Work.Steady (Work.observe (w.exchange r)) := by
      intro u u'
      rw [Work.upon_observe, Work.upon_observe, hw.exchange r u.world u'.world]
    refine Work.Steady.bind (fun _ _ => rfl) fun _ => hask.bind fun answer => ?_
    cases answer <;> exact fun _ _ => rfl

namespace Update

open Work (upon)

variable {w : World σ} {s : Setup}

theorem fetch_steady (hw : Steadfast w) (source : Source) (u u' : Updater σ) :
    (upon (Fetch.fetch w s.fetch source) u).1 = (upon (Fetch.fetch w s.fetch source) u').1 :=
  (Fetch.fetch_inquiry w s.fetch source).steady hw u u'

/-! ### Contents -/

/-- What a content reads as; nothing if it is broken. -/
def readable (w : World σ) (content : Fetch.Content) (x : σ) : Option Reading :=
  match (content.opening w x).answer.map Opened.reading with
  | .ok reading => if reading.fault.isNone then some reading else none
  | .error _ => none

theorem readable_steady (hw : Steadfast w) (content : Fetch.Content) (x y : σ) :
    readable w content x = readable w content y := by
  have hopen : (content.opening w x).answer.map Opened.reading =
      (content.opening w y).answer.map Opened.reading := by
    cases content with
    | body bytes => exact hw.openBody bytes x y
    | file path => exact hw.openFile path x y
  rw [readable, readable, hopen]

theorem readable_of_readThrough {content : Fetch.Content} {u : Updater σ} {opened : Opened}
    (h : ReadThrough w content u opened) :
    readable w content u.world = some opened.reading := by
  simp [readable, h.answer, h.sound, Except.map]

theorem readable_of_broken {content : Fetch.Content} {u : Updater σ} (h : Broken w content u) :
    readable w content u.world = none := by
  rw [readable]
  cases hanswer : (content.opening w u.world).answer with
  | error reason => rfl
  | ok opened =>
    have hfault := h opened hanswer
    simpa [Except.map] using hfault

/-! ### What becomes of a source -/

/-- A source as a run leaves it, and the entries of the list that was taken over, if one was. -/
structure Fate where
  source : Source
  entries : Option (List Entry)

/-- The list redirects no host to two targets. -/
def Fate.Undivided (f : Fate) : Prop := ∀ entries ∈ f.entries, Store.Undivided entries

instance (f : Fate) : Decidable f.Undivided := inferInstanceAs (Decidable (∀ _ ∈ _, _))

/-- The items that the source has then, by those it held, if entries are stored as they are listed.
They may come in another order, and one that blocks may be held back if it repeats another. -/
def Fate.items (f : Fate) (held : List Item) (generation : Int) : List Item :=
  match f.entries with
  | some entries => entries.map (Item.ofEntry f.source.id generation)
  | none => held.map (Item.within generation)

/-- They are the same ones in any generation. -/
theorem Fate.items_within (f : Fate) (held : List Item) (g g' : Int) :
    (f.items held g).map (Item.within g') = f.items held g' := by
  unfold Fate.items
  split
  · rw [List.map_map]
    rfl
  · rw [List.map_map]
    rfl

/-- What becomes of a source whose fetch comes to this. -/
def fetchedFate (w : World σ) (x : σ) (source : Source) : Except Error Fetch.Fetched → Fate
  | .ok (.downloaded d) =>
    match readable w d.content x with
    | some reading =>
      ⟨Store.learned source (newMetadata d),
        some (Intake.listed (Intake.Target.of source 0) reading)⟩
    | none => ⟨source, none⟩
  | .ok (.unchanged remoteModified) =>
    ⟨Store.learned source (keptMetadata source remoteModified), none⟩
  | .error _ => ⟨source, none⟩

/-- What becomes of a source: one that is on is fetched, and one that is off is cleared. -/
def fate (w : World σ) (s : Setup) (u : Updater σ) (source : Source) : Fate :=
  if source.isUser then ⟨source, none⟩
  else if source.enabled then
    fetchedFate w u.world source (upon (Fetch.fetch w s.fetch source) u).1
  else ⟨source.unread, some []⟩

theorem fetchedFate_steady (hw : Steadfast w) (x y : σ) (source : Source)
    (answer : Except Error Fetch.Fetched) :
    fetchedFate w x source answer = fetchedFate w y source answer := by
  cases answer with
  | error e => rfl
  | ok fetched =>
    cases fetched with
    | unchanged remoteModified => rfl
    | downloaded d => rw [fetchedFate, fetchedFate, readable_steady hw d.content x y]

theorem fate_steady (hw : Steadfast w) (u u' : Updater σ) (source : Source) :
    fate w s u source = fate w s u' source := by
  rw [fate, fate, fetch_steady hw source u u', fetchedFate_steady hw u.world u'.world]

/-- A fate has no part in what neither learning nor clearing touches. -/
theorem fate_map {α : Type} {g : Source → α} (hl : ∀ x m, g (Store.learned x m) = g x)
    (hu : ∀ x, g x.unread = g x) (u : Updater σ) (source : Source) :
    g (fate w s u source).source = g source := by
  unfold fate fetchedFate
  split
  · rfl
  split
  · split
    · split
      · exact hl _ _
      · rfl
    · exact hl _ _
    · rfl
  · exact hu _

theorem fate_id (u : Updater σ) (source : Source) : (fate w s u source).source.id = source.id :=
  fate_map (fun _ _ => rfl) (fun _ => rfl) u source

end Update

end Sinkhole
