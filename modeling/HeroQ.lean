import HeroQ.Lib.Runs
import HeroQ.Lib.Traces
import HeroQ.Lib.FirstOcc
import HeroQ.Lib.Sorter
import HeroQ.Lib.Loops
import HeroQ.Lib.LastWrite
import HeroQ.Lib.Numeral
import HeroQ.Lib.Groups
import HeroQ.Lib.Occurrences
import HeroQ.Lib.BatchUpdate
import HeroQ.Entities
import HeroQ.RealmHelper
import HeroQ.HeroService
import HeroQ.Unique
import HeroQ.FilterInteractor
import HeroQ.HeroListInteractor
import HeroQ.App
import HeroQ.FilterScreen
import HeroQ.Roles
import HeroQ.FilterIds
import HeroQ.Display
import HeroQ.Transitions
import HeroQ.Save
import HeroQ.Shortcut
import HeroQ.Refresh
import HeroQ.Cache
import HeroQ.Overlap
import HeroQ.Similar
import HeroQ.Provenance
import HeroQ.Status
import HeroQ.Images
import HeroQ.ActiveFilters
import HeroQ.Device
import HeroQ.Reopen
import HeroQ.Session
import HeroQ.Store
import HeroQ.Buttons
import HeroQ.Screens
import HeroQ.CenterLayout
import HeroQ.HexString
import HeroQ.ListDiff
import HeroQ.ListUpdates
import HeroQ.SectionMap
import HeroQ.ListUpdater
import HeroQ.ListAdapter
import HeroQ.Rendered
import HeroQ.RenderedFilter
import HeroQ.Toggles
import HeroQ.Cells
