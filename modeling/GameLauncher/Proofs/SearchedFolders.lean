import GameLauncher.Proofs.FolderSaving
import GameLauncher.Proofs.HandOff

namespace GameLauncher

variable {fs later : FileSystem} {p q : Path} {c : Bytes} {s : Settings}

namespace Settings

theorem load_of_read (h : fs.read p = .ok (Text.encodeUtf8 s.render)) :
    load fs p = ⟨[], .ok s⟩ := by
  obtain ⟨hnull, l, hwalk⟩ := FileSystem.read_eq_ok.1 h
  exact load_of_written hnull hwalk

theorem read_save (h : (save fs p s).2.result = .ok ()) :
    (save fs p s).1.read p = .ok (Text.encodeUtf8 s.render) := by
  obtain ⟨fs₁, l, old, -, hopen, hsave⟩ := save_eq_ok h
  obtain ⟨hnull, -, hwalk⟩ := FileSystem.openForWriting_eq_ok hopen
  simp only [hsave, FileSystem.read, FileSystem.resolve, hnull, hwalk, Bool.false_eq_true, if_false]

/-- A directory that is listed, but everywhere as one that is switched off. -/
def IsOff (s : Settings) (p : Path) : Prop :=
  (∃ d ∈ s.installDirs, d.path = p) ∧ ∀ d ∈ s.installDirs, d.path = p → d.enabled = false

theorem Gains.mem_searchedDirs_iff {t : Settings} (h : s.Gains p t) :
    p ∈ t.searchedDirs ↔ ¬ s.IsOff p := by
  cases h with
  | @listed d hd hp =>
    constructor
    · rintro hsearched ⟨-, hoff⟩
      obtain ⟨d', hd', hon, hp'⟩ := mem_searchedDirs.1 hsearched
      rw [hoff d' hd' hp'] at hon
      cases hon
    · intro hoff
      refine Decidable.not_not.1 fun hnone ↦ hoff ⟨⟨d, hd, hp⟩, fun d' hd' hp' ↦ ?_⟩
      cases hon : d'.enabled with
      | false => rfl
      | true => exact absurd (mem_searchedDirs.2 ⟨d', hd', hon, hp'⟩) hnone
  | new hnew =>
    refine iff_of_true (mem_searchedDirs.2 ⟨⟨p, true⟩, by simp⟩) ?_
    rintro ⟨⟨d, hd, hp⟩, -⟩
    exact hnew d hd hp

end Settings

namespace Progress

variable {a b : Progress} {session kept : Session} {tokens : List String} {e : Option Ending}
  {c : Completion}

theorem session_of_persist (h : a.persist kept c = (b, e)) : b.session = kept := by
  unfold persist at h
  simp only at h
  rcases withValue_cases h with ⟨rfl, -⟩ | ⟨u, -, hstop⟩
  · rfl
  · cases hstop
    rfl

theorem readCommandLine_completed
    (h : readCommandLine session fs tokens = (b, some (.completed c))) :
    session.settings.ChangedBy (Segment.ofTokens tokens.tail) (some (.completed c))
        b.session.settings ∧
      b.session.settingsFile = session.settingsFile ∧
      (c ≠ .help →
        b.files.read session.settingsFile = .ok (Text.encodeUtf8 b.session.settings.render)) := by
  rcases readCommandLine_cases h with ⟨hsame, hnothing⟩ |
    ⟨m, v, kept, c', hsame, hfolder, hsaving, hpersist⟩
  · refine ⟨?_, hsame.settingsFile, ?_⟩
    · rw [hsame.settings]
      exact .nothing hnothing
    · intro hc
      exact absurd (hnothing c rfl) hc
  · obtain ⟨hfiles, ⟨hsaved, hend⟩ | ⟨f, -, hend⟩⟩ := persist_cases hpersist
    · cases hend
      obtain rfl := session_of_persist hpersist
      have hfile : b.session.settingsFile = session.settingsFile :=
        hsaving.settingsFile.trans hsame.settingsFile
      have hchanged := hsaving.changedBy hfolder
      rw [hsame.settings] at hchanged
      refine ⟨hchanged, hfile, fun _ ↦ ?_⟩
      rw [Session.save, hfile] at hsaved hfiles
      rw [hfiles]
      exact Settings.read_save hsaved
    · cases hend

end Progress

/-- The folder that a command line says it saved is searched, in this session and in every later
one on the same file, exactly if it was not listed as switched off. -/
theorem savedFolder_searched_iff {session : Session} {tokens : List String} {b : Progress}
    (hfile : session.settingsFile = session.userDir.child UserDirectory.configName)
    (h : readCommandLine session fs tokens = (b, some (.completed .gameFolderSaved))) :
    ∃ v, Segment.namedFolder (Segment.ofTokens tokens.tail) = some v ∧
      (Path.ofString v ∈ b.session.settings.searchedDirs ↔
        ¬ session.settings.IsOff (Path.ofString v)) ∧
      ∀ later : FileSystem,
        later.read session.settingsFile = b.files.read session.settingsFile →
        ∃ s, Session.start later session.userDir = ⟨[], .ok s⟩ ∧
          s.settings = b.session.settings := by
  obtain ⟨hchanged, -, hread⟩ := Progress.readCommandLine_completed h
  have hsaved := hread (by decide)
  generalize b.session.settings = settings at hchanged hsaved ⊢
  cases hchanged with
  | nothing hnothing => exact absurd (hnothing _ rfl) (by decide)
  | @game v _ hv hgains =>
    refine ⟨v, hv, hgains.mem_searchedDirs_iff, ?_⟩
    intro later hlater
    have hload := Settings.load_of_read (hlater.trans hsaved)
    rw [hfile] at hload
    exact ⟨_, start_of_load hload, rfl⟩

def gamesListed : Settings where
  installDirs := [⟨.ofString "old", false⟩, ⟨.ofString "g", false⟩, ⟨.ofString "g", true⟩]

theorem savedFolder_searched_listed_twice :
    let session := Session.opened (.ofString "user") gamesListed
    let files := (FileSystem.bare []).withDirectory (FileSystem.placeAt "g")
    let tokens := ["emucli", "-p", "--add-game-folder", "--add-game-folder", "g/.", "--help"]
    let b := (readCommandLine session files tokens).1
    session.settingsFile = session.userDir.child UserDirectory.configName ∧
      readCommandLine session files tokens = (b, some (.completed .gameFolderSaved)) ∧
      Segment.namedFolder (Segment.ofTokens tokens.tail) = some "g/." ∧
      Path.ofString "g/." ∈ b.session.settings.searchedDirs := by
  intro session files tokens b
  have h : readCommandLine session files tokens = (b, some (.completed .gameFolderSaved)) := rfl
  obtain ⟨v, hv, hsearched, -⟩ := savedFolder_searched_iff rfl h
  have hfolder : Segment.namedFolder (Segment.ofTokens tokens.tail) = some "g/." := by decide
  rw [hfolder, Option.some.injEq] at hv
  subst hv
  refine ⟨rfl, h, hfolder, hsearched.2 ?_⟩
  rintro ⟨-, hoff⟩
  exact absurd (hoff ⟨.ofString "g", true⟩ (by decide) (by decide)) (by decide)

def gamesOff : Settings where
  installDirs := [⟨.ofString "g", false⟩]

def treeWithGamesOff : FileSystem :=
  ((FileSystem.bare []).withDirectory (FileSystem.placeAt "g")).withFile "user/config.toml"
    (Text.encodeUtf8 gamesOff.render)

/-- A folder that is listed as switched off stays so, although the command says that it was saved. -/
theorem savedFolder_stays_off :
    let session := Session.opened (.ofString "user") gamesOff
    let read := readCommandLine session treeWithGamesOff ["emucli", "--add-game-folder", "g"]
    Session.start treeWithGamesOff (.ofString "user") = ⟨[], .ok session⟩ ∧
      read.2 = some (.completed .gameFolderSaved) ∧
      read.1.session.settings.searchedDirs = [] ∧
      Session.start read.1.files (.ofString "user") = ⟨[], .ok session⟩ := by
  intro session read
  have hfile : session.settingsFile = (Path.ofString "user").child UserDirectory.configName := rfl
  have hbefore : treeWithGamesOff.read session.settingsFile =
      .ok (Text.encodeUtf8 gamesOff.render) := rfl
  have hafter : read.1.files.read session.settingsFile =
      .ok (Text.encodeUtf8 gamesOff.render) := rfl
  rw [hfile] at hbefore hafter
  exact ⟨start_of_load (Settings.load_of_read hbefore), rfl, rfl,
    start_of_load (Settings.load_of_read hafter)⟩

end GameLauncher
