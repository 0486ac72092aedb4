import SushidaOs.Binary64
import SushidaOs.Bytes
import SushidaOs.Config
import SushidaOs.Contracts.ConfigEnv
import SushidaOs.Contracts.Report
import SushidaOs.Contracts.Schema
import SushidaOs.Contracts.SchemaCheck
import SushidaOs.Contracts.SchemaMeaning
import SushidaOs.Decimal
import SushidaOs.FirstMax
import SushidaOs.Json
import SushidaOs.Lines
import SushidaOs.Machine
import SushidaOs.Navigation.Classify
import SushidaOs.Navigation.Session
import SushidaOs.PyStr
import SushidaOs.Runtime.Interleave
import SushidaOs.Runtime.KioskSignal
import SushidaOs.Runtime.Launch
import SushidaOs.Runtime.NetworkWatch
import SushidaOs.Runtime.Routes
import SushidaOs.Runtime.State
import SushidaOs.Script
import SushidaOs.Url
import SushidaOs.Utf8
import SushidaOs.Wifi.Connect
import SushidaOs.Wifi.Contract
import SushidaOs.Wifi.Coordinator
import SushidaOs.Wifi.Core
import SushidaOs.Wifi.Marker
import SushidaOs.Wifi.Message
import SushidaOs.Wifi.Nmcli
import SushidaOs.Wifi.Outcome
import SushidaOs.Wifi.Restore
import SushidaOs.Wifi.Scan
import SushidaOs.Wifi.ScanTable
import SushidaOs.Wifi.Secrecy
import SushidaOs.Wifi.Service
import SushidaOs.Wifi.Slots
import SushidaOs.Wifi.Storage
import SushidaOs.Wifi.Types
import SushidaOs.Wifi.Wakeup
import SushidaOs.Wifi.World
import SushidaOs.Wifi.Yield
import SushidaOs.WordSearch
import SushidaOs.Runtime.StartUrl
import SushidaOs.JsonLoads
import SushidaOs.Wifi.Credentials
import SushidaOs.Crash
import SushidaOs.Publish
import SushidaOs.Publication
import SushidaOs.Runtime.StateText
import SushidaOs.Runtime.StateMain
import SushidaOs.Navigation.Torn
import SushidaOs.Navigation.Newest
import SushidaOs.Html
import SushidaOs.Wifi.Page
import SushidaOs.Wifi.Form
import SushidaOs.Wifi.Web
import SushidaOs.Wifi.Deadline
import SushidaOs.ConfigText
import SushidaOs.Runtime.InputWatch
import SushidaOs.Contracts.SchemaKeywords
import SushidaOs.Contracts.SchemaPlain
import SushidaOs.Contracts.TimeoutDrift
import SushidaOs.Release.Squashfs
import SushidaOs.Runtime.ReasonToken
import SushidaOs.Runtime.Supervise
import SushidaOs.TokenRestart
import SushidaOs.Wifi.Escape
import SushidaOs.Wifi.Security
import SushidaOs.Paths
import SushidaOs.Release.Extract
import SushidaOs.StrOrder
import SushidaOs.PathTree
import SushidaOs.Structure
import SushidaOs.RateLimit
import SushidaOs.Navigation.Watch
import SushidaOs.Runtime.Hotkeys
import SushidaOs.Ere
import SushidaOs.Subst
import SushidaOs.Diagnostics
