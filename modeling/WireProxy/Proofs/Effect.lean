import WireProxy.Proofs.Runs
import WireProxy.Proofs.Scanning
import WireProxy.Proofs.Texts

/-!
# Successful runs

A run that succeeds has put both texts in place and has changed nothing else; where both paths lead
to one file, the definitions are written last and stay.  Unless it has overwritten its own input, a
second run does the same again and so changes nothing.
-/

namespace WireProxy

namespace Protocol

variable {p : Protocol} {settings : Settings}

/-- A header begins with its guard and a source text with an inclusion. -/
theorem render_declarations_ne_definitions :
    (p.render settings).declarations ≠ (p.render settings).definitions := by
  intro same
  have third := congrArg (fun text => text.toList[2]?) same
  simp [render, Binding.declarationLines, OutputStyle.preamble, Binding.definitionLines,
    OutputStyle.definitionsHead, includeLine, Code.toList_text_cons] at third

theorem length_proxies_binding :
    (p.binding settings).proxies.length = (p.generated settings).length := by
  simp [binding, Binding.ofProxies]

theorem summary_total :
    (p.summary settings).interfaces = (p.binding settings).proxies.length +
      (p.summary settings).skipped := by
  have parts := List.length_eq_length_filter_add (l := p.interfaces)
    fun i => settings.isHandMaintained i.name
  have total : p.interfaces.length = p.size := by simp [interfaces, size]
  rw [length_proxies_binding, generated]
  simp only [summary]
  omega

theorem summary_emitted :
    (p.summary settings).emitted = (p.binding settings).proxies.length := by
  have total : (p.summary settings).interfaces = (p.binding settings).proxies.length +
      (p.summary settings).skipped := summary_total
  simp only [summary] at total ⊢
  omega

theorem size_of_load {o : Origin} {text : String} {root : Xml.Element}
    (parsed : Xml.root? text = some root) (loaded : Protocol.load o text = .ok p) :
    p.size = (root.children "interface").length := by
  obtain ⟨other, parsed', -, -, scanned, -⟩ := load_eq_ok.mp loaded
  rw [parsed] at parsed'
  cases parsed'
  rw [scanned.length_eq]
  simp [interfaces, size]

end Protocol

/-! ## Runs that nothing stops -/

theorem fromUTF8?_toUTF8 (text : String) : String.fromUTF8? text.toUTF8 = some text :=
  dif_pos text.isValidUTF8

namespace Volume

variable {v w : Volume} {own : List String} {path : String} {paths : Paths}
  {first second : Route} {files : List (Route × ByteArray)}

theorem exists_run_stage (able : Stageable w path) (content : ByteArray) :
    ∃ staged w', (disk.stage path content).run w = (.ok staged, w') := by
  obtain ⟨staged, empty, creates⟩ := exists_createFor able
  have created := run_create.trans (settle_eq_ok.mpr creates)
  refine ⟨staged, empty.put staged (.file content), ?_⟩
  refine run_bind_eq.mpr ⟨.ok staged, empty, created, ?_⟩
  exact run_bind_eq.mpr ⟨.ok (), _, run_fill, run_bind_eq.mpr ⟨.ok (), _, rfl, rfl⟩⟩

theorem exists_run_commit {staged target : Route} {content : ByteArray}
    (besides : Staged own v ((staged, content) :: files) w)
    (found : v.destination path = .ok target) :
    ∃ w', (disk.commit staged path).run w = (.ok (), w') := by
  obtain ⟨w', moves⟩ := besides.exists_move found
  exact ⟨w', run_commit.trans (settle_eq_ok.mpr (map_unit_eq_ok.mpr moves))⟩

theorem exists_run_backup (able : Stageable w path) :
    ∃ previous w', (disk.backup path).run w = (.ok previous, w') := by
  have asked : (disk.isFile path).run w = (w.hasFile path, w) := rfl
  cases there : w.hasFile path with
  | false =>
      rw [there] at asked
      exact ⟨none, w, run_bind_eq.mpr ⟨false, w, asked, rfl⟩⟩
  | true =>
      obtain ⟨content, held⟩ := hasFile_eq_true.mp there
      have read := run_read_of_contentAt held
      obtain ⟨copy, w', stages⟩ := exists_run_stage able content
      rw [there] at asked
      refine ⟨some (copy, content), w', run_bind_eq.mpr ⟨true, w, asked, ?_⟩⟩
      exact run_bind_eq.mpr ⟨.ok content, w, read, run_bind_eq.mpr ⟨.ok copy, w', stages, rfl⟩⟩

theorem exists_run_commitBoth {declarations definitions : Route} {text text' : ByteArray}
    {previous : Option (Route × ByteArray)}
    (besides : Staged paths.all v ((declarations, text) :: (definitions, text') :: files) w)
    (found : v.destination paths.declarations = .ok first)
    (found' : v.destination paths.definitions = .ok second) :
    ∃ journal w', (disk.commitBoth paths declarations definitions previous).run w =
      (⟨.ok (), journal⟩, w') := by
  obtain ⟨between, moves⟩ := exists_run_commit besides found
  obtain ⟨target, leads, besides⟩ :=
    besides.move paths.declarations_mem
      (((disk_atomic paths.all).commit declarations paths.declarations).done moves)
  have replaced := sameDirectories_of_destination leads text
  obtain ⟨last, moves'⟩ := exists_run_commit besides (replaced.destination found')
  refine ⟨[], ((disk.discardAll (previous.toList.map Prod.fst)).run last).2, ?_⟩
  refine run_bind_eq.mpr ⟨.ok (), between, moves, ?_⟩
  exact run_bind_eq.mpr ⟨.ok (), last, moves', run_bind_eq.mpr ⟨(), _, rfl, rfl⟩⟩

theorem exists_run_write (rendered : Rendered) (able : Stageable v paths.declarations)
    (able' : Stageable v paths.definitions)
    (found : v.destination paths.declarations = .ok first)
    (found' : v.destination paths.definitions = .ok second) :
    ∃ journal w', (disk.write paths rendered).run v = (⟨.ok (), journal⟩, w') := by
  obtain ⟨declarations, staged, stages⟩ := exists_run_stage able rendered.declarations.toUTF8
  have atomic := disk_atomic paths.all
  have besides :=
    (Staged.refl paths.all v).stage ((atomic.stage paths.declarations _).done stages)
  obtain ⟨definitions, both, stages'⟩ :=
    exists_run_stage (besides.sameDirectories.stageable able') rendered.definitions.toUTF8
  have besides := besides.stage ((atomic.stage paths.definitions _).done stages')
  obtain ⟨previous, saved, copies⟩ := exists_run_backup (besides.sameDirectories.stageable able)
  obtain ⟨-, besides⟩ := atomic.backup paths.declarations_mem besides copies
  obtain ⟨journal, w', commits⟩ := exists_run_commitBoth besides found found'
  exact ⟨_, w', run_bind_eq.mpr ⟨.ok declarations, staged, stages,
    run_bind_eq.mpr ⟨.ok definitions, both, stages',
      run_bind_eq.mpr ⟨.ok previous, saved, copies,
        run_bind_eq.mpr ⟨⟨.ok (), journal⟩, w', commits, rfl⟩⟩⟩⟩⟩

theorem exists_run_generate {settings : Settings} {text : String} {p : Protocol}
    (held : v.contentAt paths.input = .ok text.toUTF8)
    (loaded : Protocol.load ⟨paths.input, settings.stem⟩ text = .ok p)
    (able : Stageable v paths.declarations) (able' : Stageable v paths.definitions)
    (found : v.destination paths.declarations = .ok first)
    (found' : v.destination paths.definitions = .ok second) :
    ∃ journal w', (disk.generate settings paths).run v =
      (⟨.ok (p.summary settings), journal⟩, w') := by
  have read := run_read_of_contentAt held
  have decoded : (disk.readText paths.input).run v = (.ok text, v) := by
    refine run_bind_eq.mpr ⟨.ok text.toUTF8, v, read, ?_⟩
    simp only [fromUTF8?_toUTF8]
    rfl
  have load : (disk.load settings paths.input).run v =
      (⟨.ok p, Protocol.loadJournal ⟨paths.input, settings.stem⟩ text⟩, v) := by
    refine run_bind_eq.mpr ⟨.ok text, v, decoded, ?_⟩
    simp only [loaded]
    rfl
  obtain ⟨journal, w', writes⟩ := exists_run_write (p.render settings) able able' found found'
  exact ⟨_, w', run_bind_eq.mpr ⟨_, v, load, run_bind_eq.mpr ⟨_, w', writes, rfl⟩⟩⟩

/-! ## What both texts in place mean -/

theorem mem_putIn {items : List (Route × Item)} {route : Route} {item : Item}
    {entry : Route × Item} (member : entry ∈ putIn route item items) :
    entry ∈ items ∨ entry.1 = route := by
  induction items with
  | nil =>
      rw [putIn, List.mem_singleton] at member
      exact .inr (by rw [member])
  | cons head items ih =>
      obtain ⟨start, old⟩ := head
      by_cases same : start = route
      · simp only [putIn, same, if_true, List.mem_cons] at member
        rcases member with rfl | later
        · exact .inr rfl
        · exact .inl (List.mem_cons_of_mem _ later)
      · simp only [putIn, same, if_false, List.mem_cons] at member
        rcases member with rfl | later
        · exact .inl List.mem_cons_self
        · exact (ih later).imp_left (List.mem_cons_of_mem _)

/-- To put the same two items in place again changes nothing, also if they share a route. -/
theorem put_put_again {item item' : Item} (nonempty : first ≠ []) (nonempty' : second ≠ []) :
    (((v.put first item).put second item').put first item).put second item' =
      (v.put first item).put second item' := by
  have last : ((v.put first item).put second item').item? second = some item' :=
    item?_put_self nonempty'
  by_cases same : first = second
  · subst same
    simp
  · have kept : ((v.put first item).put second item').item? first = some item := by
      rw [item?_put_of_ne same, item?_put_self nonempty]
    rw [put_of_item? nonempty kept, put_of_item? nonempty' last]

/-- Both texts are in place, the definitions last, and nothing else has changed. -/
structure Replaced (v : Volume) (paths : Paths) (rendered : Rendered) (w : Volume) : Prop where
  definitions : w.contentAt paths.definitions = .ok rendered.definitions.toUTF8
  declarations : w.contentAt paths.declarations = .ok rendered.declarations.toUTF8 ↔
    v.route paths.declarations ≠ v.route paths.definitions
  shared : v.route paths.declarations = v.route paths.definitions →
    w.contentAt paths.declarations = .ok rendered.definitions.toUTF8
  routes : ∀ path target, w.route path = .ok target ↔ v.route path = .ok target
  others : ∀ route, v.route paths.declarations ≠ .ok route →
    v.route paths.definitions ≠ .ok route → w.item? route = v.item? route
  items : ∀ entry ∈ w.items, entry ∈ v.items ∨ v.route paths.declarations = .ok entry.1 ∨
    v.route paths.definitions = .ok entry.1

end Volume

namespace Disk.Wrote

open Volume

variable {v w : Volume} {paths : Paths} {text text' : ByteArray}

theorem sameDirectories (wrote : Wrote v paths text text' w) : SameDirectories v w := by
  obtain ⟨first, second, found, found', rfl⟩ := wrote
  have once := sameDirectories_of_destination found text
  exact once.trans (sameDirectories_of_destination found' text')

/-- The two destinations in the volume before, and the volume after in terms of them. -/
theorem destinations (wrote : Wrote v paths text text' w) :
    ∃ first second, v.destination paths.declarations = .ok first ∧
      v.destination paths.definitions = .ok second ∧
      w = (v.put first (.file text)).put second (.file text') := by
  obtain ⟨first, second, found, found', written⟩ := wrote
  have once := sameDirectories_of_destination found text
  exact ⟨first, second, found, once.symm.destination found', written⟩

theorem replaced {rendered : Rendered} (differ : rendered.declarations ≠ rendered.definitions)
    (wrote : Wrote v paths rendered.declarations.toUTF8 rendered.definitions.toUTF8 w) :
    Replaced v paths rendered w := by
  have same := wrote.sameDirectories
  obtain ⟨first, second, found, found', written⟩ := wrote.destinations
  obtain ⟨-, leads, -⟩ := destination_eq_ok.mp found
  obtain ⟨-, leads', -⟩ := destination_eq_ok.mp found'
  have last : w.item? second = some (.file rendered.definitions.toUTF8) := by
    rw [written, item?_put_self (ne_nil_of_destination found')]
  have shared : v.route paths.declarations = v.route paths.definitions →
      w.contentAt paths.declarations = .ok rendered.definitions.toUTF8 := by
    intro together
    exact contentAt_eq_ok.mpr ⟨second, same.route (together.trans leads'), last⟩
  refine ⟨contentAt_eq_ok.mpr ⟨second, same.route leads', last⟩, ⟨?_, ?_⟩, shared, ?_, ?_, ?_⟩
  · intro held together
    rw [shared together, Except.ok.injEq] at held
    exact differ (String.toByteArray_inj.mp held).symm
  · intro apart
    have different : first ≠ second := by
      rintro rfl
      exact apart (leads.trans leads'.symm)
    refine contentAt_eq_ok.mpr ⟨first, same.route leads, ?_⟩
    rw [written, item?_put_of_ne different, item?_put_self (ne_nil_of_destination found)]
  · intro path target
    exact ⟨same.symm.route, same.route⟩
  · intro route notFirst notSecond
    have different : route ≠ first := by
      rintro rfl
      exact notFirst leads
    have different' : route ≠ second := by
      rintro rfl
      exact notSecond leads'
    rw [written, item?_put_of_ne different', item?_put_of_ne different]
  · intro entry member
    rw [written] at member
    rcases mem_putIn member with earlier | isSecond
    · rcases mem_putIn earlier with before | isFirst
      · exact .inl before
      · exact .inr (.inl (by rw [isFirst, leads]))
    · exact .inr (.inr (by rw [isSecond, leads']))

/-- Writing the same texts to the same paths once more changes nothing. -/
theorem again {w' : Volume} (wrote : Wrote v paths text text' w)
    (twice : Wrote w paths text text' w') : w' = w := by
  have same := wrote.sameDirectories
  obtain ⟨first, second, found, found', rfl⟩ := wrote.destinations
  obtain ⟨other, other', sought, sought', rfl⟩ := twice.destinations
  rw [same.destination found, Except.ok.injEq] at sought
  rw [same.destination found', Except.ok.injEq] at sought'
  subst sought sought'
  exact put_put_again (ne_nil_of_destination found) (ne_nil_of_destination found')

end Disk.Wrote

/-! ## What a successful run has done -/

theorem Volume.Replaced.contentAt_input {v w : Volume} {paths : Paths} {rendered : Rendered}
    {content : ByteArray} (replaced : Replaced v paths rendered w)
    (held : v.contentAt paths.input = .ok content)
    (apart : v.route paths.input ≠ v.route paths.declarations)
    (apart' : v.route paths.input ≠ v.route paths.definitions) :
    w.contentAt paths.input = .ok content := by
  obtain ⟨target, leads, isFile⟩ := contentAt_eq_ok.mp held
  refine contentAt_eq_ok.mpr ⟨target, (replaced.routes _ _).mpr leads, ?_⟩
  rw [replaced.others target, isFile]
  · rw [← leads]
    exact Ne.symm apart
  · rw [← leads]
    exact Ne.symm apart'

/-- A run on what such a run has left, with its input still there, ends in the same way. -/
theorem Volume.generate_again {settings : Settings} {paths : Paths} {v w : Volume} {text : String}
    {p : Protocol} (held : w.contentAt paths.input = .ok text.toUTF8)
    (loaded : Protocol.load ⟨paths.input, settings.stem⟩ text = .ok p)
    (able : Stageable v paths.declarations) (able' : Stageable v paths.definitions)
    (wrote : Disk.Wrote v paths (p.render settings).declarations.toUTF8
      (p.render settings).definitions.toUTF8 w) :
    ∃ report, (disk.generate settings paths).run w = (report, w) ∧
      report.result = .ok (p.summary settings) := by
  have same := wrote.sameDirectories
  obtain ⟨first, second, found, found', -⟩ := wrote.destinations
  obtain ⟨journal, w', ran⟩ := exists_run_generate held loaded (same.stageable able)
    (same.stageable able') (same.destination found) (same.destination found')
  obtain ⟨text', p', held', loaded', -, -, -, twice⟩ := (disk_atomic paths.all).generate ran
  rw [id_eq, held, Except.ok.injEq] at held'
  cases String.toByteArray_inj.mp held'
  rw [loaded] at loaded'
  cases loaded'
  obtain rfl : w' = w := wrote.again twice
  exact ⟨_, ran, rfl⟩

theorem Disk.generate_ok_effect {settings : Settings} {paths : Paths} {v w : Volume}
    {report : Reported Summary} {summary : Summary}
    (ran : (Volume.disk.generate settings paths).run v = (report, w))
    (succeeded : report.result = .ok summary) :
    ∃ text root p, v.contentAt paths.input = .ok text.toUTF8 ∧ Xml.root? text = some root ∧
      Protocol.load ⟨paths.input, settings.stem⟩ text = .ok p ∧
      Volume.Replaced v paths (p.render settings) w ∧
      summary.interfaces = (root.children "interface").length ∧
      summary.emitted = (p.binding settings).proxies.length ∧
      summary.interfaces = summary.emitted + summary.skipped ∧
      (v.route paths.input ≠ v.route paths.declarations →
        v.route paths.input ≠ v.route paths.definitions →
        ∃ report', (Volume.disk.generate settings paths).run w = (report', w) ∧
          report'.result = .ok summary) := by
  have ended := (Volume.disk_atomic paths.all).generate ran
  rw [succeeded] at ended
  obtain ⟨text, p, held, loaded, rfl, able, able', wrote⟩ := ended
  obtain ⟨root, parsed, -⟩ := Protocol.load_eq_ok.mp loaded
  have replaced := wrote.replaced Protocol.render_declarations_ne_definitions
  have emitted : (p.summary settings).emitted = (p.binding settings).proxies.length :=
    Protocol.summary_emitted
  refine ⟨text, root, p, held, parsed, loaded, replaced, Protocol.size_of_load parsed loaded,
    emitted, ?_, ?_⟩
  · rw [emitted]
    exact Protocol.summary_total
  · intro apart apart'
    exact Volume.generate_again (replaced.contentAt_input held apart apart') loaded able able' wrote

def displayProtocolVolume : Volume where
  items := [(["work"], .directory),
    (["work", "in.xml"], .file ("<protocol><interface name=\"wl_display\" version=\"1\"/>" ++
      "<interface name=\"wl_seat\" version=\"1\"/></protocol>").toUTF8)]
  home := ["work"]

def separateRun : Reported Summary × Volume :=
  (Volume.disk.generate {} ⟨"in.xml", "out.hpp", "../out.hpp"⟩).run displayProtocolVolume

def meetingRun : Reported Summary × Volume :=
  (Volume.disk.generate {} ⟨"in.xml", "out.hpp", "/work/./out.hpp"⟩).run displayProtocolVolume

theorem Disk.generate_ok_effect_display :
    (separateRun.1.result = .ok ⟨2, 1, 1⟩ ∧
      ∃ report, (Volume.disk.generate {} ⟨"in.xml", "out.hpp", "../out.hpp"⟩).run separateRun.2 =
        (report, separateRun.2) ∧ report.result = .ok ⟨2, 1, 1⟩) ∧
      meetingRun.1.result = .ok ⟨2, 1, 1⟩ ∧
        meetingRun.2.contentAt "out.hpp" = meetingRun.2.contentAt "/work/./out.hpp" := by
  constructor
  · have ran : (Volume.disk.generate {} ⟨"in.xml", "out.hpp", "../out.hpp"⟩).run
        displayProtocolVolume = (separateRun.1, separateRun.2) := by rw [separateRun, Prod.eta]
    have succeeded : separateRun.1.result = .ok ⟨2, 1, 1⟩ := by decide +kernel
    obtain ⟨text, root, p, -, -, -, -, -, -, -, again⟩ := Disk.generate_ok_effect ran succeeded
    exact ⟨succeeded, again (by decide +kernel) (by decide +kernel)⟩
  · have ran : (Volume.disk.generate {} ⟨"in.xml", "out.hpp", "/work/./out.hpp"⟩).run
        displayProtocolVolume = (meetingRun.1, meetingRun.2) := by rw [meetingRun, Prod.eta]
    have succeeded : meetingRun.1.result = .ok ⟨2, 1, 1⟩ := by decide +kernel
    obtain ⟨text, root, p, -, -, -, replaced, -⟩ := Disk.generate_ok_effect ran succeeded
    exact ⟨succeeded, (replaced.shared (by decide +kernel)).trans replaced.definitions.symm⟩

end WireProxy
