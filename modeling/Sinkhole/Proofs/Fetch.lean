import Sinkhole.Fetch
import Sinkhole.Proofs.Work

/-! A fetch asks and writes nothing.

Asking a server or the file system may take long and may be repeated, and signals
come in meanwhile, but all that a fetch is made of is asking and waiting. `Inquiry` says
so, once, of each part that a fetch is made of. What follows for all such work, whatever
comes of it, follows for a fetch: the store is as it was, and the only requests that went
out are for the source's list, under its validators, or are under no conditions. -/
namespace Sinkhole

namespace Error

/-- Whether a content could not be read to its end. -/
def isParseFailure : Error → Bool
  | parseFailure _ _ => true
  | _ => false

/-- Whether a statement of the store failed. -/
def isStorage : Error → Bool
  | storage _ => true
  | _ => false

/-- Whether an error comes from what is done with a content, and not from fetching it. -/
def isLate (e : Error) : Bool := e.isParseFailure || e.isStorage

end Error

namespace Fetch

open Work (Begins Confined Sends Yields)

variable {σ : Type} {p : Item → Bool} (w : World σ)

/-- Work that does nothing but ask a world, with requests that `q` takes. -/
inductive Inquiry (w : World σ) (q : Request → Prop) : {α : Type} → Work σ α → Prop where
  | pure {α : Type} (a : α) : Inquiry w q (pure a)
  | throw {α : Type} (e : Error) : Inquiry w q (throw e : Work σ α)
  | bind {α β : Type} {work : Work σ α} {next : α → Work σ β} (first : Inquiry w q work)
      (rest : ∀ a, Inquiry w q (next a)) : Inquiry w q (work >>= next)
  | outcome {α : Type} {work : Work σ α} (inquiry : Inquiry w q work) :
      Inquiry w q (Work.outcome work)
  | waited (millis : Nat) : Inquiry w q (Work.note (.waited millis))
  | exchange {r : Request} (taken : q r) : Inquiry w q (exchange w r)
  | facts (path : String) : Inquiry w q (Work.observe (w.facts path))

namespace Inquiry

variable {α : Type} {work : Work σ α} {q : Request → Prop} {w : World σ}

theorem confined (h : Inquiry w q work) : Confined p work := by
  induction h with
  | pure a => exact .pure a
  | throw e => exact .throw e
  | bind first rest ihf ihr => exact .bind ihf ihr
  | outcome inquiry ih => exact ih.outcome
  | waited millis => exact .note _
  | facts path => exact .observe _
  | exchange taken =>
    refine .bind (.note _) fun _ => .bind (.observe _) fun answer => ?_
    cases answer with
    | ok response => exact .pure response
    | error fault => exact .throw _

theorem sends (h : Inquiry w q work) : Sends q work := by
  induction h with
  | pure a => exact .pure a
  | throw e => exact .throw e
  | bind first rest ihf ihr => exact .bind ihf ihr
  | outcome inquiry ih => exact ih.outcome
  | waited millis => exact .waited millis
  | facts path => exact .observe _
  | exchange taken =>
    refine .bind (.sent taken) fun _ => .bind (.observe _) fun answer => ?_
    cases answer with
    | ok response => exact .pure response
    | error fault => exact .throw _

end Inquiry

/-! ### Requests -/

section

variable {q : Request → Prop} {r : Request}

theorem follow_inquiry (hq : ∀ url, q { r with url }) (mostHops room : Nat) (previous : List Url)
    (url : Url) : Inquiry w q (follow w mostHops room previous { r with url }) := by
  induction room generalizing previous url with
  | zero =>
    rw [follow]
    refine .bind (.exchange (hq url)) fun response => ?_
    split
    · exact .pure response
    · dsimp only
      split
      · exact .throw _
      · exact .throw _
  | succ room ih =>
    rw [follow]
    refine .bind (.exchange (hq url)) fun response => ?_
    split
    · exact .pure response
    · dsimp only
      split
      · exact .throw _
      · exact ih _ _

theorem attempt_inquiry (hq : ∀ url, q { r with url }) (s : Settings) :
    Inquiry w q (attempt w s r) := by
  rw [attempt]
  split
  · refine .bind (follow_inquiry w hq _ _ [] r.url) fun response => ?_
    split
    · exact .pure response
    · exact .throw _
  · exact .throw _

theorem attemptsFrom_inquiry (hq : ∀ url, q { r with url }) (s : Settings) (left retry : Nat) :
    Inquiry w q (attemptsFrom w s r left retry) := by
  induction left generalizing retry with
  | zero => exact attempt_inquiry w hq s
  | succ left ih =>
    rw [attemptsFrom]
    refine .bind (attempt_inquiry w hq s).outcome fun answer => ?_
    cases answer with
    | ok response => exact .pure response
    | error e =>
      show Inquiry w q (if e.isTransient = true then _ else _)
      split
      · exact .bind (.waited _) fun _ => ih _
      · exact .throw e

/-- A request may be repeated, and redirected to another URL. -/
theorem send_inquiry (hq : ∀ url, q { r with url }) (s : Settings) : Inquiry w q (send w s r) :=
  attemptsFrom_inquiry w hq s _ _

end

/-! ### Lists -/

/-- The requests that may go out for a source. -/
inductive MaySend (s : Settings) (source : Source) : Request → Prop where
  /-- The source's list is asked for under its validators, where it lies or where a redirect
  leads to. -/
  | conditional {place : Url} (at_ : source.place = .ok (.remote place)) (url : Url) :
      MaySend s source { listRequest s source place true with url }
  | plain (method : Method) (url : Url) : MaySend s source { method, url, userAgent := s.userAgent }

theorem download_inquiry (s : Settings) {source : Source} {url : Url}
    (hplace : source.place = .ok (.remote url)) (conditional : Bool) :
    Inquiry w (MaySend s source) (download w s source url conditional) := by
  refine .bind (send_inquiry w (fun next => ?_) s) fun response => ?_
  · cases conditional with
    | true => exact .conditional hplace next
    | false => exact .plain .get next
  · cases ofResponse url response with
    | ok fetched => exact .pure fetched
    | error e => exact .throw e

/-- Asking a forge is under no conditions. -/
theorem forgeTime_inquiry {q : Request → Prop} (s : Settings)
    (hq : ∀ method url, q { method, url, userAgent := s.userAgent }) (url : Url) :
    Inquiry w q (forgeTime w s url) := by
  rw [forgeTime]
  split
  · exact .pure none
  · refine .bind (send_inquiry w (fun next => hq .get next) s).outcome fun answer => ?_
    cases answer with
    | ok response => exact .pure _
    | error e => exact .pure none

theorem fetchRemote_inquiry (s : Settings) {source : Source} {url : Url}
    (hplace : source.place = .ok (.remote url)) :
    Inquiry w (MaySend s source) (fetchRemote w s source url) := by
  refine .bind (forgeTime_inquiry w s .plain url) fun modified => ?_
  cases modified with
  | none => exact download_inquiry w s hplace true
  | some modified =>
    show Inquiry w _ (if _ then _ else _)
    split
    · exact .pure _
    · exact .bind (download_inquiry w s hplace false) fun fetched => .pure _

theorem fileFacts_inquiry {q : Request → Prop} (path : String) :
    Inquiry w q (fileFacts w path) := by
  refine .bind (.facts path) fun answer => ?_
  cases answer with
  | ok facts => exact .pure facts
  | error reason => exact .throw _

theorem fetchLocal_inquiry {q : Request → Prop} (source : Source) (path : String) :
    Inquiry w q (fetchLocal w source path) := by
  refine .bind (fileFacts_inquiry w path) fun facts => ?_
  split
  · exact .pure _
  · exact .pure _

/-- **A fetch is nothing but asking**, with requests for the source only. -/
theorem fetch_inquiry (s : Settings) (source : Source) :
    Inquiry w (MaySend s source) (fetch w s source) := by
  rw [fetch, place]
  cases hplace : source.place with
  | error e => exact .throw e
  | ok location =>
    cases location with
    | remote url => exact fetchRemote_inquiry w s hplace
    | «local» path => exact fetchLocal_inquiry w source path
    | user => exact .throw _

theorem place_inquiry {q : Request → Prop} (source : Source) :
    Inquiry w q (place source : Work σ Location) := by
  rw [place]
  split
  · exact .pure _
  · exact .throw _

/-- Nor is asking when a source was last changed, and that is under no conditions. -/
theorem probe_inquiry {q : Request → Prop} (s : Settings)
    (hq : ∀ method url, q { method, url, userAgent := s.userAgent }) (source : Source) :
    Inquiry w q (probe w s source) := by
  refine .bind (place_inquiry w source) fun location => ?_
  cases location with
  | remote url =>
    refine .bind (forgeTime_inquiry w s hq url) fun modified => ?_
    cases modified with
    | some modified => exact .pure _
    | none => exact .bind (send_inquiry w (fun next => hq .head next) s) fun response => .pure _
  | «local» path => exact .bind (fileFacts_inquiry w path) fun facts => .pure _
  | user => exact .throw _

/-- **A fetch leaves the store as it is**, whatever it comes to. -/
theorem fetch_confined (s : Settings) (source : Source) : Confined p (fetch w s source) :=
  (fetch_inquiry w s source).confined

theorem fetch_store (s : Settings) (source : Source) (u : Updater σ) :
    (Work.upon (fetch w s source) u).2.store = u.store :=
  (fetch_confined w s source u).store.eq_of_none

/-! ### Where a source lies -/

theorem upon_place {source : Source} {location : Location} (h : source.place = .ok location)
    (u : Updater σ) : Work.upon (place source) u = (.ok location, u) := by
  rw [place, h]
  rfl

theorem fetch_remote (s : Settings) {source : Source} {url : Url}
    (h : source.place = .ok (.remote url)) : fetch w s source = fetchRemote w s source url := by
  rw [fetch, place, h]
  rfl

theorem fetch_local (s : Settings) {source : Source} {path : String}
    (h : source.place = .ok (.local path)) : fetch w s source = fetchLocal w source path := by
  rw [fetch, place, h]
  rfl

variable {w} in
/-- A list whose forge gives a time is judged by that time, and asked for without conditions if it
was changed. -/
theorem fetch_forge {s : Settings} {source : Source} {url : Url} {modified : Time.Instant}
    {u u' : Updater σ} (hplace : source.place = .ok (.remote url))
    (hforge : Work.upon (forgeTime w s url) u = (.ok (some modified), u')) :
    Work.upon (fetch w s source) u =
      if source.applied.any (modified.le ·) then (.ok (.unchanged (some modified)), u')
      else Work.upon ((Fetched.at modified) <$> download w s source url false) u' := by
  rw [fetch_remote w s hplace, fetchRemote, Work.upon_bind_of_ok hforge]
  dsimp only
  split <;> rfl

/-- A file is judged by what the world says about it. -/
theorem upon_fileFacts (path : String) (u : Updater σ) :
    ∃ u', Work.upon (fileFacts w path) u = ((w.facts path u.world).answer.mapError .io, u') := by
  rw [fileFacts, Work.upon_bind_of_ok (Work.upon_observe _ u)]
  cases (w.facts path u.world).answer with
  | error reason => exact ⟨_, rfl⟩
  | ok facts => exact ⟨_, rfl⟩

theorem upon_fetchLocal (source : Source) {path : String} {facts : FileFacts} {u : Updater σ}
    (h : (w.facts path u.world).answer = .ok facts) :
    (Work.upon (fetchLocal w source path) u).1 =
      .ok (if isUnchanged source facts then .unchanged facts.modified
        else .downloaded
          { content := .file path, lastModified := facts.modified, size := facts.size }) := by
  obtain ⟨u', hfacts⟩ := upon_fileFacts w path u
  rw [h] at hfacts
  rw [fetchLocal, Work.upon_bind_of_ok hfacts]
  split <;> rfl

/-- A fetch from no server fails for want of a file or of a place to look for one, and not as what
comes after it does. -/
theorem fetch_early {s : Settings} {source : Source} {location : Location}
    (hplace : source.place = .ok location) (hnear : location.isRemote = false) {u u' : Updater σ}
    {e : Error} (h : Work.upon (fetch w s source) u = (.error e, u')) :
    e.isLate = false := by
  cases location with
  | remote url => cases hnear
  | user =>
    rw [fetch, Work.upon_bind_of_ok (upon_place hplace u)] at h
    cases h
    rfl
  | «local» path =>
    rw [fetch_local w s hplace] at h
    cases hanswer : (w.facts path u.world).answer with
    | error reason =>
      obtain ⟨u'', hfacts⟩ := upon_fileFacts w path u
      rw [hanswer] at hfacts
      rw [fetchLocal, Work.upon_bind_of_error hfacts] at h
      cases h
      rfl
    | ok facts =>
      have hok := upon_fetchLocal w source hanswer
      rw [h] at hok
      cases hok

/-! ### What was reported -/

/-- The world has given this response to some request. -/
def Serves (w : World σ) (response : Response) : Prop :=
  ∃ r x, (w.exchange r x).answer = .ok response

/-- What was fetched is the body of one response, with the tag that came with it, and with the
time that came with it or that the forge gave for it. -/
def Reported (w : World σ) (d : Download) : Prop :=
  ∃ response, Serves w response ∧ d.content = .body response.body ∧
    d.entityTag = response.entityTag? ∧
    (d.lastModified = response.lastModified? ∨
      ∃ answer, Serves w answer ∧ d.lastModified = commitTime? answer.body)

theorem exchange_serves (r : Request) : Yields (Serves w) (exchange w r) := by
  refine .bind (.any _) fun _ _ => ?_
  intro u response u' hu
  obtain ⟨answer, u₁, hask, hrest⟩ := Work.of_upon_bind hu
  rw [Work.upon_observe] at hask
  obtain ⟨hask, -⟩ := Prod.mk.inj hask
  injection hask with hask
  cases answer with
  | error fault => cases hrest
  | ok response' =>
    injection hrest with hrest
    injection hrest with hrest
    exact ⟨r, u.world, hrest ▸ hask⟩

theorem follow_serves (mostHops room : Nat) (previous : List Url) (r : Request) :
    Yields (Serves w) (follow w mostHops room previous r) := by
  induction room generalizing previous r with
  | zero =>
    rw [follow]
    refine .bind (exchange_serves w r) fun response hserves => ?_
    split
    · exact .pure hserves
    · dsimp only
      split
      · exact .throw _ _
      · exact .throw _ _
  | succ room ih =>
    rw [follow]
    refine .bind (exchange_serves w r) fun response hserves => ?_
    split
    · exact .pure hserves
    · dsimp only
      split
      · exact .throw _ _
      · exact ih _ _

theorem attempt_serves (s : Settings) (r : Request) : Yields (Serves w) (attempt w s r) := by
  rw [attempt]
  split
  · refine .bind (follow_serves w _ _ [] r) fun response hserves => ?_
    split
    · exact .pure hserves
    · exact .throw _ _
  · exact .throw _ _

theorem attemptsFrom_serves (s : Settings) (r : Request) (left retry : Nat) :
    Yields (Serves w) (attemptsFrom w s r left retry) := by
  induction left generalizing retry with
  | zero => exact attempt_serves w s r
  | succ left ih =>
    rw [attemptsFrom]
    refine .bind (attempt_serves w s r).outcome fun answer hserves => ?_
    cases answer with
    | ok response => exact .pure (hserves response rfl)
    | error e =>
      show Yields _ (if e.isTransient = true then _ else _)
      split
      · exact .bind (.any _) fun _ _ => ih _
      · exact .throw _ e

theorem send_serves (s : Settings) (r : Request) : Yields (Serves w) (send w s r) :=
  attemptsFrom_serves w s r _ _

theorem ofResponse_downloaded {url : Url} {r : Response} {d : Download}
    (h : ofResponse url r = .ok (.downloaded d)) :
    d.content = .body r.body ∧ d.entityTag = r.entityTag? ∧ d.lastModified = r.lastModified? := by
  unfold ofResponse at h
  split at h
  · cases h
  split at h
  · cases h
  split at h
  · cases h
  split at h
  · cases h
    exact ⟨rfl, rfl, rfl⟩
  · cases h

theorem download_reported (s : Settings) (source : Source) (url : Url) (conditional : Bool) :
    Yields (fun fetched => ∀ d, fetched = .downloaded d → ∃ response, Serves w response ∧
      d.content = .body response.body ∧ d.entityTag = response.entityTag? ∧
      d.lastModified = response.lastModified?) (download w s source url conditional) := by
  refine .bind (send_serves w s _) fun response hserves => ?_
  cases hof : ofResponse url response with
  | error e => exact .throw _ e
  | ok fetched =>
    refine .pure fun d hd => ⟨response, hserves, ?_⟩
    rw [hd] at hof
    exact ofResponse_downloaded hof

theorem forgeTime_served (s : Settings) (url : Url) :
    Yields (fun at? => ∀ time, at? = some time → ∃ answer, Serves w answer ∧
      at? = commitTime? answer.body) (forgeTime w s url) := by
  rw [forgeTime]
  split
  · exact .pure (by simp)
  · refine .bind (send_serves w s _).outcome fun answer hserves => ?_
    cases answer with
    | error e => exact .pure (by simp)
    | ok response =>
      refine .pure fun time htime => ⟨response, hserves response rfl, ?_⟩
      split at htime
      · rename_i hwhole
        rw [if_pos hwhole]
      · cases htime

/-- **What is fetched from a server was reported by it, or by its forge, as one.** -/
theorem fetchRemote_reported (s : Settings) (source : Source) (url : Url) :
    Yields (fun fetched => ∀ d, fetched = .downloaded d → Reported w d)
      (fetchRemote w s source url) := by
  refine .bind (forgeTime_served w s url) fun modified hforge => ?_
  cases modified with
  | none =>
    intro u fetched u' hu d hd
    obtain ⟨response, hserves, hcontent, htag, htime⟩ :=
      download_reported w s source url true u fetched u' hu d hd
    exact ⟨response, hserves, hcontent, htag, .inl htime⟩
  | some modified =>
    show Yields _ (if _ then _ else _)
    split
    · exact .pure (by simp)
    · refine .bind (download_reported w s source url false) fun fetched hreported => ?_
      refine .pure fun d hd => ?_
      cases fetched with
      | unchanged at? => cases hd
      | downloaded d' =>
        obtain ⟨response, hserves, hcontent, htag, -⟩ := hreported d' rfl
        obtain ⟨answer, hanswer, htime⟩ := hforge modified rfl
        cases hd
        exact ⟨response, hserves, hcontent, htag, .inr ⟨answer, hanswer, htime⟩⟩

/-! ### Beginnings -/

theorem exchange_begins (r : Request) : Begins r (exchange w r) := by
  refine .bind (.sent r) fun _ => .bind (.observe _) fun answer => ?_
  cases answer with
  | ok response => exact .pure response
  | error fault => exact .throw _

theorem follow_begins (mostHops room : Nat) (previous : List Url) (r : Request) :
    Begins r (follow w mostHops room previous r) := by
  cases room with
  | zero =>
    rw [follow]
    refine .bind (exchange_begins w r) fun response => ?_
    split
    · exact .pure response
    · dsimp only
      split
      · exact .throw _
      · exact .throw _
  | succ room =>
    rw [follow]
    refine .bind (exchange_begins w r) fun response => ?_
    split
    · exact .pure response
    · dsimp only
      split
      · exact .throw _
      · exact (follow_inquiry w (fun _ => trivial) mostHops room _ _).sends

/-- A request that can be written down is sent. -/
theorem attempt_begins {r : Request} (h : r.isSendable = true) (s : Settings) :
    Begins r (attempt w s r) := by
  rw [attempt, if_pos h]
  refine .bind (follow_begins w _ _ [] r) fun response => ?_
  split
  · exact .pure response
  · exact .throw _

theorem send_begins {r : Request} (h : r.isSendable = true) (s : Settings) :
    Begins r (send w s r) := by
  rw [send]
  cases attempts s.http.maxRetries - 1 with
  | zero => exact attempt_begins w h s
  | succ left =>
    rw [attemptsFrom]
    refine .bind (attempt_begins w h s).outcome fun answer => ?_
    cases answer with
    | ok response => exact .pure response
    | error e =>
      show Sends _ (if e.isTransient = true then _ else _)
      split
      · exact .bind (.waited _) fun _ =>
          (attemptsFrom_inquiry w (fun _ => trivial) s left 2).sends
      · exact .throw e

/-- A download without conditions asks for the list. -/
theorem download_begins (s : Settings) (source : Source) (url : Url) :
    Begins (listRequest s source url false) (download w s source url false) := by
  refine .bind (send_begins w rfl s) fun response => ?_
  cases ofResponse url response with
  | ok fetched => exact .pure fetched
  | error e => exact .throw e

/-! ### Opening -/

theorem openContent_confined (content : Content) : Confined p (openContent w content) := by
  refine .bind (.observe _) fun answer => ?_
  cases answer with
  | ok opened => exact .pure opened
  | error reason => exact .throw _

/-- What is opened is what the world answers. -/
theorem openContent_answer {content : Content} {u u' : Updater σ} {opened : Opened}
    (h : Work.upon (openContent w content) u = (.ok opened, u')) :
    (content.opening w u.world).answer = .ok opened := by
  obtain ⟨answer, u₁, hask, hrest⟩ := Work.of_upon_bind h
  rw [Work.upon_observe] at hask
  have hanswer : (content.opening w u.world).answer = answer := by
    injection hask with hask
    injection hask
  rw [hanswer]
  cases answer with
  | ok opened' =>
    injection hrest with hok
    injection hok with hok
    rw [hok]
  | error reason => cases hrest

end Fetch

end Sinkhole
