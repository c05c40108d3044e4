import JavaAudit.Command
import Std.Time.DateTime.Timestamp

/-! The command line. What a run may look at is taken from the disk first; the run itself is a
function of it; then what it printed and wrote is passed on. -/
namespace JavaAudit.Disk

def located (path : String) : IO.FS.DirEntry := { root := path, fileName := "" }

def kind? (path : String) : IO (Option IO.FS.FileType) :=
  try
    let data ← (located path).root.symlinkMetadata
    pure (some data.type)
  catch _ => pure none

def childNames (path : String) : IO (List String) :=
  try
    let children ← (located path).root.readDir
    pure (children.toList.map (·.fileName))
  catch _ => pure []

def real? (path : String) : IO (Option String) :=
  try
    let real ← IO.FS.realPath path
    pure (some real.toString)
  catch _ => pure none

def bytesOf (path : String) : IO Text.Bytes :=
  try
    let bytes ← IO.FS.readBinFile path
    pure bytes.toList
  catch _ => pure []

def namesOf (path : String) : List String := (Path.pieces path).filter (!Path.isIdle ·)

mutual

partial def takeEntry (whole : Bool) (root : Entry) (path : String) : IO Entry := do
  let names := namesOf path
  match ← kind? path with
  | some .file => pure (Entry.put (.file (← bytesOf path)) names root)
  | some .dir =>
      let root := match root.at? names with
        | some (.directory _) => root
        | _ => Entry.put (.directory []) names root
      if !whole then pure root
      else (← childNames path).foldlM (fun root name =>
        takeEntry true root (Path.join path name)) root
  | some .symlink => match ← real? path with
      | none => pure (Entry.put (.link "/missing-target") names root)
      | some target =>
          let root := Entry.put (.link target) names root
          if (root.at? (namesOf target)).isSome then pure root else takePath whole root target
  | _ => pure root

partial def takePath (whole : Bool) (root : Entry) (path : String) : IO Entry := do
  let pieces := Path.pieces path
  let start := if Path.isAbsolute path then "/" else "."
  let (root, _) ← (List.range pieces.length).foldlM (fun (root, base) i => do
    let piece := pieces.getD i ""
    if Path.isIdle piece then pure (root, base)
    else
      let next := Path.join base piece
      match ← real? base with
      | some above =>
          if piece = ".." then pure (root, next)
          else
            let last := i + 1 = pieces.length
            pure (← takeEntry (whole && last) root (Path.join above piece), next)
      | none => pure (root, next)) (root, start)
  if whole then
    match ← real? path with
    | some target => takeEntry true root target
    | none => pure root
  else pure root

end

def environment : IO Variables := do
  let names := ["HOME", "XDG_CONFIG_HOME"] ++
    Environment.keys.map (Environment.variableName Environment.family)
  let values ← names.mapM fun name => do
    let value ← IO.getEnv name
    pure (value.map (name, ·))
  pure (values.filterMap id)

def foreseen (w : World) (a : Arguments) : Settings :=
  let layer := do
    let file ← w.fileLayer a
    let vars ← w.variableLayer Environment.family
    pure (Layer.stack [file, vars, a.toLayer])
  (layer.toOption.getD {}).toSettings

def world (a : Arguments) : IO World := do
  let vars ← environment
  let here := ((← real? ".").map namesOf).getD []
  let root := Entry.put (.directory []) here (.directory [])
  let root ← (a.config.toList ++ Config.defaultLocations vars).foldlM (takePath false) root
  let settings := foreseen ⟨⟨root, here⟩, vars⟩ a
  let root ← (settings.outputFile.toList ++ a.dot.toList).foldlM (takePath false) root
  let root ← if a.init then pure root else takePath true root settings.scanPath
  pure ⟨⟨root, here⟩, vars⟩

def store (s : Session) : IO Unit :=
  s.written.reverse.forM fun path =>
    match s.files.read path with
    | .ok bytes => IO.FS.writeBinFile path (ByteArray.mk bytes.toArray)
    | .error _ => pure ()

def now : IO Moment := do
  let stamp ← Std.Time.Timestamp.now
  pure (.ofEpoch stamp.val.second.val.toNat stamp.val.nano.val.toNat)

def run (a : Arguments) : IO UInt32 := do
  let begun ← IO.monoNanosNow
  let w ← world a
  let plan ← IO.lazyPure fun _ => (Command.ofArguments a).plan Source.parse w
  let date ← now
  let nanos := (← IO.monoNanosNow) - begun
  let time : Timing := ⟨date, .ofParts 0 nanos⟩
  let (code, s) := Command.finish w.files time plan
  store s
  (← IO.getStdout).putStr s.output
  (← IO.getStderr).putStr s.errors
  pure code.toUInt32

end JavaAudit.Disk

open JavaAudit in
def main (words : List String) : IO UInt32 := do
  match CommandLine.read words with
  | .ok a => Disk.run a
  | .error .displayVersion =>
      (← IO.getStdout).putStr CommandLine.versionText
      pure 0
  | .error .displayHelp =>
      (← IO.getStdout).putStrLn ("Usage: " ++ CommandLine.programName ++ " [OPTIONS]")
      pure 0
  | .error _ =>
      (← IO.getStderr).putStrLn ("Usage: " ++ CommandLine.programName ++ " [OPTIONS]")
      pure 2
