import Sinkhole.Fetch.Forge
import Sinkhole.Proofs.Url.Reader

/-! What a forge is asked.

The question about a raw URL can be put to every forge whose address can be read
(`Answers`), and no other URL gives rise to one. It names the file and the revision as
the URL writes them. The forge reads the query once, so what is still encoded then is
a name with percent signs in it: the question is about the file that the URL names if
no segment holds an escape, and about another one if some does
(`question_as_written`). -/
namespace Sinkhole.Fetch

open Text Url

variable {f : RawFile} {cs : List Char} {url api : Url}

/-- A URL of the raw host with an owner, a repository, a revision and a path. -/
structure Raw (url : Url) (f : RawFile) : Prop where
  host : url.hostText? = some rawHost
  segments : url.segments? = some (f.owner :: f.repository :: f.revision :: f.path)
  path : f.path ≠ []
  full : [] ∉ f.owner :: f.repository :: f.revision :: f.path

theorem rawFile?_eq_some : rawFile? url = some f ↔ Raw url f := by
  unfold rawFile?
  constructor
  · intro h
    split at h
    · rename_i hhost
      split at h
      · rename_i owner repository revision path hsegments
        split at h
        · cases h
        · rename_i hfull
          injection h with h
          subst h
          simp only [Bool.or_eq_true, not_or, List.any_eq_true, List.isEmpty_iff] at hfull
          obtain ⟨⟨hfront, hpath⟩, hbehind⟩ := hfull
          refine ⟨hhost, hsegments, hpath, fun hmem => ?_⟩
          rcases List.mem_append.mp (show [] ∈ [owner, repository, revision] ++ path from hmem)
            with hmem | hmem
          · exact hfront ⟨[], hmem, rfl⟩
          · exact hbehind ⟨[], hmem, rfl⟩
      · cases h
    · cases h
  · rintro ⟨hhost, hsegments, hpath, hfull⟩
    rw [if_pos hhost, hsegments]
    simp_all

/-- The forge's address, as far as every question begins with it, can be read. -/
def Answers (forge : String) : Prop :=
  (Url.read? (dropEndWhile (· == '/') forge.toList ++ "/repos/".toList)).isSome

/-- The public forge can be asked. -/
theorem answers_publicForge : Answers publicForge := by
  unfold Answers
  decide +kernel

/-- An owner or repository holds no mark of a query. -/
theorem Raw.mark_not_mem (hraw : Raw url f) (hread : Url.read? cs = some url) :
    '?' ∉ f.owner ∧ '?' ∉ f.repository := by
  have hkept : Kept url.path := (read?_made hread).kept (by rw [hraw.host]; rfl)
  have hsegment {s : List Char} (hs : s ∈ f.owner :: f.repository :: f.revision :: f.path) :
      '?' ∉ s := by
    intro hmark
    have hsegments := hraw.segments
    unfold Url.segments? at hsegments
    split at hsegments
    · rename_i rest hpath
      injection hsegments with hsegments
      have hmem : '?' ∈ url.path := by
        rw [hpath]
        exact List.mem_cons_of_mem '/' (mem_of_mem_pieces (hsegments ▸ hs) hmark)
      exact absurd (hkept _ hmem) (by decide)
    · cases hsegments
  exact ⟨hsegment List.mem_cons_self, hsegment (List.mem_cons_of_mem _ List.mem_cons_self)⟩

/-- What a question about a file stands on. -/
def address (forge : String) (f : RawFile) : List Char :=
  dropEndWhile (· == '/') forge.toList ++ "/repos/".toList ++
    (f.owner ++ '/' :: (f.repository ++ "/commits".toList))

theorem commitsUrl?_of_file (h : rawFile? url = some f) (forge : String) :
    commitsUrl? forge url = (Url.read? (address forge f)).map fun api =>
      { api with query := some (appendPairs (api.query.getD []) f.parameters) } := by
  have haddress : dropEndWhile (· == '/') forge.toList ++ "/repos/".toList ++ f.owner ++
      '/' :: f.repository ++ "/commits".toList = address forge f := by
    simp only [address, List.append_assoc, List.cons_append]
  unfold commitsUrl?
  rw [h]
  simp only [haddress, Option.bind_eq_bind, Option.bind_some]
  cases Url.read? (address forge f) <;> rfl

/-- A forge that answers can be asked about every file. -/
theorem isSome_address (forge : String) (f : RawFile) :
    (Url.read? (address forge f)).isSome ↔ Answers forge := by
  obtain ⟨good, hgood⟩ := isSome_read?_append (dropEndWhile (· == '/') forge.toList)
  have hforge := hgood [] nofun
  rw [List.append_nil] at hforge
  rw [Answers, hforge, address, hgood]
  intro d hd
  rw [List.getLast?_append_of_ne_nil _ (List.cons_ne_nil _ _),
    List.getLast?_cons_of_ne_nil (by simp),
    List.getLast?_append_of_ne_nil _ (by decide)] at hd
  cases hd
  decide

/-- The question at `api` is about the file at `path` in the revision `sha`. What the address of the
forge asks by itself stands before it. -/
def Asks (forge : String) (api : Url) (path sha : List UInt8) : Prop :=
  ∃ own, readPairs (api.query.getD []) = own ++
      [(utf8 "path".toList, path), (utf8 "sha".toList, sha), (utf8 "per_page".toList, utf8 ['1'])] ∧
    ('?' ∉ forge.toList → own = [])

/-- A question is about one file in one revision. -/
theorem Asks.iff {forge : String} {path sha path' sha' : List UInt8}
    (h : Asks forge api path sha) : Asks forge api path' sha' ↔ path' = path ∧ sha' = sha := by
  constructor
  · rintro ⟨own', hpairs', -⟩
    obtain ⟨own, hpairs, -⟩ := h
    have htail := (List.append_inj' (hpairs'.symm.trans hpairs) rfl).2
    simpa using htail
  · rintro ⟨rfl, rfl⟩
    exact h

theorem asks_as_written (hread : Url.read? cs = some url) (hraw : Raw url f) {forge : String}
    {base : Url} (hbase : Url.read? (address forge f) = some base) :
    Asks forge { base with query := some (appendPairs (base.query.getD []) f.parameters) }
      (utf8 (['/'].intercalate f.path)) (utf8 f.revision) := by
  refine ⟨readPairs (base.query.getD []), readPairs_appendPairs _ f.parameters, fun hforge => ?_⟩
  obtain ⟨howner, hrepository⟩ := hraw.mark_not_mem hread
  have hfront : '?' ∉ dropEndWhile (· == '/') forge.toList := by
    obtain ⟨back, hsplit, -⟩ := dropEndWhile_split (· == '/') forge.toList
    rw [hsplit] at hforge
    exact fun hmark => hforge (List.mem_append_left back hmark)
  have hnone : '?' ∉ address forge f := by
    simp only [address, List.mem_append, List.mem_cons, not_or]
    exact ⟨⟨hfront, by decide⟩, howner, by decide, hrepository, by decide⟩
  rw [(read?_made hbase).query hnone]
  rfl

/-- **A forge is asked about the file as its URL writes it**, which is the file that the URL names
just when none of its segments holds an escape. -/
theorem question_as_written (hread : Url.read? cs = some url) (forge : String) :
    ((commitsUrl? forge url).isSome ↔ Answers forge ∧ ∃ f, Raw url f) ∧
      ∀ f api, Raw url f → commitsUrl? forge url = some api →
        Asks forge api (utf8 (['/'].intercalate f.path)) (utf8 f.revision) ∧
        (Asks forge api (joined (f.path.map percentDecode)) (percentDecode f.revision) ↔
          (∀ s ∈ f.path, ¬Escaped s) ∧ ¬Escaped f.revision) := by
  constructor
  · cases hfile : rawFile? url with
    | none =>
      have hnone : ¬∃ f, Raw url f := by
        rintro ⟨f, hraw⟩
        rw [rawFile?_eq_some.mpr hraw] at hfile
        cases hfile
      rw [commitsUrl?, hfile]
      exact iff_of_false nofun fun h => hnone h.2
    | some f =>
      rw [commitsUrl?_of_file hfile, Option.isSome_map, isSome_address,
        and_iff_left ⟨f, rawFile?_eq_some.mp hfile⟩]
  · intro f api hraw hasked
    rw [commitsUrl?_of_file (rawFile?_eq_some.mpr hraw), Option.map_eq_some_iff] at hasked
    obtain ⟨base, hbase, rfl⟩ := hasked
    have hwritten := asks_as_written hread hraw hbase
    refine ⟨hwritten, hwritten.iff.trans (and_congr ?_ percentDecode_eq_utf8)⟩
    exact eq_comm.trans (joined_percentDecode_eq f.path)

/-- A URL of the raw host. -/
def rawUrl (path : String) : Url :=
  { scheme := "https".toList, site := some (.domain rawHost), path := path.toList }

/-- The question about a file in the repository `r` of `o`. -/
def questionUrl (query : String) : Url :=
  { scheme := "https".toList, site := some (.domain "api.github.com".toList)
    path := "/repos/o/r/commits".toList, query := some query.toList }

theorem question_as_written_plain :
    Answers publicForge ∧
      Url.read? "https://raw.githubusercontent.com/o/r/main/d/hosts".toList =
        some (rawUrl "/o/r/main/d/hosts") ∧
      commitsUrl? publicForge (rawUrl "/o/r/main/d/hosts") =
        some (questionUrl "path=d%2Fhosts&sha=main&per_page=1") ∧
      Asks publicForge (questionUrl "path=d%2Fhosts&sha=main&per_page=1")
        (utf8 "d/hosts".toList) (utf8 "main".toList) := by
  have hread : Url.read? "https://raw.githubusercontent.com/o/r/main/d/hosts".toList =
      some (rawUrl "/o/r/main/d/hosts") := by decide +kernel
  have hasked : commitsUrl? publicForge (rawUrl "/o/r/main/d/hosts") =
      some (questionUrl "path=d%2Fhosts&sha=main&per_page=1") := by decide +kernel
  have hraw : Raw (rawUrl "/o/r/main/d/hosts")
      ⟨['o'], ['r'], "main".toList, ["d".toList, "hosts".toList]⟩ :=
    rawFile?_eq_some.mp (by decide +kernel)
  exact ⟨answers_publicForge, hread, hasked,
    ((question_as_written hread publicForge).2 _ _ hraw hasked).1⟩

/-- A blank in a name is asked about as a percent sign and two digits. -/
theorem blank_asked_as_written :
    Url.read? "https://raw.githubusercontent.com/o/r/main/my%20hosts".toList =
        some (rawUrl "/o/r/main/my%20hosts") ∧
      ∃ f api, Raw (rawUrl "/o/r/main/my%20hosts") f ∧
        commitsUrl? publicForge (rawUrl "/o/r/main/my%20hosts") = some api ∧
        ¬Asks publicForge api (joined (f.path.map percentDecode)) (percentDecode f.revision) := by
  refine ⟨by decide +kernel, ⟨['o'], ['r'], "main".toList, ["my%20hosts".toList]⟩,
    questionUrl "path=my%2520hosts&sha=main&per_page=1", rawFile?_eq_some.mp (by decide +kernel),
    by decide +kernel, fun hdecoded => ?_⟩
  have hwritten : Asks publicForge (questionUrl "path=my%2520hosts&sha=main&per_page=1")
      (utf8 "my%20hosts".toList) (utf8 "main".toList) := ⟨[], by decide +kernel, fun _ => rfl⟩
  exact absurd (hwritten.iff.mp hdecoded).1 (by decide +kernel)

end Sinkhole.Fetch
