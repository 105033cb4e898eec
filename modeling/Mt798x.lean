import Mt798x.Ap.Restored
import Mt798x.Base.Ipcalc
import Mt798x.Bcm4908.Renamed
import Mt798x.Bmt.Bbt
import Mt798x.Bmt.Io
import Mt798x.Bmt.PoolInit
import Mt798x.Cli.History
import Mt798x.Cli.Reference
import Mt798x.Cli.Types
import Mt798x.Detect.Resolve
import Mt798x.Fritz.Extract
import Mt798x.Hnat.Blacklist
import Mt798x.Hnat.Forward
import Mt798x.Hnat.Members
import Mt798x.Hnat.Neigh
import Mt798x.Hostapd.Masks
import Mt798x.Hostapd.Resume
import Mt798x.Iwcap.Pcap
import Mt798x.Map.Bounds
import Mt798x.Map.PortSets
import Mt798x.Mikrotik.Lz77Counter
import Mt798x.Mikrotik.Rle
import Mt798x.Mikrotik.SoftConfig
import Mt798x.Mtd.Dump
import Mt798x.Mtd.Fis
import Mt798x.Mtd.Fixed
import Mt798x.Mtd.Jffs2
import Mt798x.Mtdsplit.Split
import Mt798x.Mtwifi.Again
import Mt798x.Mtwifi.Reported
import Mt798x.Nmbm.Bounds
import Mt798x.Nmbm.Header
import Mt798x.Nmbm.Home
import Mt798x.Nvram.Chains
import Mt798x.Nvram.Scan
import Mt798x.Pcat.Queue
import Mt798x.Tffs.Flat
import Mt798x.Tffs.Lookup
import Mt798x.Uline.Exact
import Mt798x.Uline.Quote
import Mt798x.Uline.Redraw
import Mt798x.Uline.Window
import Mt798x.Unetmsg.Agreement
import Mt798x.Unetmsg.Auth
import Mt798x.Unetmsg.Equal
import Mt798x.Wifi.Roaming
import Mt798x.Wireless.Links
import Mt798x.Wireless.Reload
