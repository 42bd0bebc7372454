import Groundwork.Assessment
import Groundwork.Issue.Detection
import Groundwork.Summary.Description
import Groundwork.Tagging

/-!
From a base record to an enriched one: complexity, issues, tags, priority, and a description by
rule. A file that could not be read or parsed keeps the description that says so.
-/

namespace Groundwork

namespace FileRecord

def unreadableDescription : String := "Could not read file content"

def unparsedDescription : String := "Could not analyze file content"

def isDegraded (r : FileRecord) : Bool :=
  r.description == unreadableDescription || r.description == unparsedDescription

def enrichWith (r : FileRecord) (content : String) : FileRecord :=
  let complexity := Assessment.complexityOf r
  let issues := Issue.detect r.path content
  let needs := Assessment.needsSummary r complexity issues
  { r with
    complexity := some complexity
    issues := some issues
    tags := some (Tagging.tags r.path r content)
    needsSummary := some needs
    priority := some (Assessment.priority issues complexity needs)
    summarySource := some (if needs then .pending else .ruleBased)
    description := if r.isDegraded then r.description else Summary.describe r }

def enrich (r : FileRecord) : FileRecord := r.enrichWith r.content

end FileRecord

end Groundwork
